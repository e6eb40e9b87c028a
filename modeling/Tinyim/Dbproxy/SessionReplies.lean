import Tinyim.Logic.PushRouting

/-! `GetSessions` with every way in which its `MGET` can end. The sizes are compared before
the kind of the reply is tested, and an error reply has the size zero. -/
namespace Tinyim.Dbproxy
open Logic

/-- The reply to an `MGET`; an element is a string or nil. -/
inductive RedisReply where
  | array (elements : List (Option Text))
  | error (text : Text)
  deriving DecidableEq, Repr

def RedisReply.size : RedisReply → Nat
  | .array elements => elements.length
  | .error _ => 0

/-- How an execution of `GetSessions` ends. -/
inductive SessionsResult where
  | failed (error : RpcError)
  | answered (sessions : List Session)
  /-- `CHECK_EQ` has ended the process. -/
  | aborted
  deriving DecidableEq, Repr

/-- The body of the loop. -/
def sessionOf (userId : Int) : Option Text → Session
  | some addr => { hasSession := true, userId, addr := cStr addr }
  | none => { hasSession := false, userId }

def getSessionsOfReply (userIds : List Int) : Rpc RedisReply → SessionsResult
  | .error error => .failed error
  | .ok reply =>
    if reply.size = userIds.length then
      match reply with
      | .array elements => .answered (List.zipWith sessionOf userIds elements)
      | .error _ => .answered []
    else .aborted

/-- The ways in which the `MGET` can end while Redis holds `value`. -/
def MgetGives (value : Int → Option Text) (userIds : List Int) : Rpc RedisReply → Prop
  | .ok (.array elements) => elements = userIds.map value
  | .ok (.error _) | .error _ => True

/-- The RPC fails or has one session for each user, in order, with what Redis holds, and
`SendtoPeers` reads none that is not there. -/
def FailsOrAnswers (value : Int → Option Text) (userIds : List Int) : SessionsResult → Prop
  | .failed _ => True
  | .answered sessions =>
      sessions = userIds.map (fun userId =>
        ⟨(value userId).isSome, userId, (value userId).getD []⟩) ∧
      ∃ logged, logSessions userIds sessions = some logged
  | .aborted => False

/-- An error comes for the empty list only, and no address has a NUL. -/
def Answerable (userIds : List Int) : Rpc RedisReply → Prop
  | .ok (.array elements) => ∀ addr, some addr ∈ elements → nul ∉ addr
  | .ok (.error _) => userIds = []
  | .error _ => True

variable {value : Int → Option Text} {userIds : List Int}

/-- The branch of the array is the flat function that the other modules use. -/
theorem getSessionsOfReply_array :
    getSessionsOfReply userIds (.ok (.array (userIds.map value))) =
      .answered (getSessions value userIds) := by
  have loop : List.zipWith sessionOf userIds (userIds.map value) = getSessions value userIds := by
    rw [List.zipWith_map_right, List.zipWith_self]
    rfl
  have sizes : (RedisReply.array (userIds.map value)).size = userIds.length := List.length_map _
  rw [getSessionsOfReply, if_pos sizes, loop]

theorem sessionOf_eq_iff (userId : Int) (element : Option Text) :
    sessionOf userId element = ⟨element.isSome, userId, element.getD []⟩ ↔
      ∀ addr, element = some addr → nul ∉ addr := by
  cases element with
  | none => exact iff_of_true rfl nofun
  | some addr =>
      simp only [sessionOf, Option.isSome_some, Option.getD_some, Session.mk.injEq, true_and,
        Option.some.injEq, forall_eq', cStr_eq_self_iff]

theorem getSessions_eq_iff :
    getSessions value userIds = userIds.map (fun userId =>
        ⟨(value userId).isSome, userId, (value userId).getD []⟩) ↔
      ∀ addr, some addr ∈ userIds.map value → nul ∉ addr := by
  have loop : getSessions value userIds =
      userIds.map fun userId => sessionOf userId (value userId) := rfl
  rw [loop, List.map_inj_left]
  constructor
  · intro shown addr member
    obtain ⟨userId, asked, held⟩ := List.mem_map.mp member
    exact (sessionOf_eq_iff userId (value userId)).mp (shown userId asked) addr held
  · intro plain userId asked
    refine (sessionOf_eq_iff userId (value userId)).mpr fun addr held => ?_
    exact plain addr (held ▸ List.mem_map_of_mem asked)

/-- `GetSessions` answers or fails, unless Redis replies with an error to a request for some
users or holds an address with a NUL. -/
theorem getSessions_answers_iff {reply : Rpc RedisReply} (given : MgetGives value userIds reply) :
    FailsOrAnswers value userIds (getSessionsOfReply userIds reply) ↔
      Answerable userIds reply := by
  cases reply with
  | error error => exact Iff.rfl
  | ok reply =>
      cases reply with
      | array elements =>
          obtain rfl : elements = userIds.map value := given
          rw [getSessionsOfReply_array, Answerable, ← getSessions_eq_iff]
          exact and_iff_left (logSessions_defined length_getSessions.ge)
      | error text =>
          cases userIds with
          | nil => exact iff_of_true ⟨rfl, [], rfl⟩ rfl
          | cons userId userIds => exact iff_of_false id nofun

/-- One of two users has a session. -/
theorem getSessions_answers_iff_two :
    FailsOrAnswers (fun userId => if userId = 7 then some "10.0.0.1:8000".toList else none) [9, 7]
        (getSessionsOfReply [9, 7] (.ok (.array [none, some "10.0.0.1:8000".toList]))) ∧
      getSessionsOfReply [9, 7] (.ok (.array [none, some "10.0.0.1:8000".toList])) =
        .answered [⟨false, 9, []⟩, ⟨true, 7, "10.0.0.1:8000".toList⟩] := by
  refine ⟨(getSessions_answers_iff ?_).mpr ?_, by decide⟩
  · exact rfl
  · intro addr member
    obtain absurd | same := List.mem_pair.mp member
    · cases absurd
    · cases same
      decide

/-- Redis is still loading its data, and the process ends. -/
theorem error_reply_aborts :
    MgetGives (fun _ => none) [7] (.ok (.error "LOADING".toList)) ∧
      getSessionsOfReply [7] (.ok (.error "LOADING".toList)) = .aborted ∧
      ¬ FailsOrAnswers (fun _ => none) [7]
        (getSessionsOfReply [7] (.ok (.error "LOADING".toList))) :=
  ⟨trivial, rfl, id⟩

end Tinyim.Dbproxy
