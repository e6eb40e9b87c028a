import Mathlib.Logic.Function.Basic
import Tinyim.Common.Messages

/-! The access addresses that dbproxy keeps in Redis under the keys `{user_id}a`. -/
namespace Tinyim.Dbproxy

/-- `EX 3600`, in microseconds like the clock of the access servers. -/
def sessionLifetime : Int := 3600 * 1000000

/-- A key set with `EX` and the time from which Redis no longer answers it. -/
structure StoredSession where
  addr : Text
  expireAt : Int
  deriving DecidableEq, Repr

abbrev SessionStore := Int → Option StoredSession

/-- The value of the key at a given time. -/
def SessionStore.value (store : SessionStore) (now userId : Int) : Option Text :=
  (store userId).bind fun session => if now < session.expireAt then some session.addr else none

/-- `SET {user_id}a access_addr EX 3600`. -/
def authAndSaveSession (now userId : Int) (accessAddr : Text) (store : SessionStore) :
    SessionStore :=
  Function.update store userId (some ⟨cStr accessAddr, now + sessionLifetime⟩)

structure Session where
  hasSession : Bool
  userId : Int
  addr : Text := []
  deriving DecidableEq, Repr

/-- `GetSessions`: one entry for each user of the request, in its order. -/
def getSessions (value : Int → Option Text) (userIds : List Int) : List Session :=
  userIds.map fun userId => match value userId with
    | some addr => { hasSession := true, userId, addr := cStr addr }
    | none => { hasSession := false, userId }

theorem length_getSessions : (getSessions value userIds).length = userIds.length :=
  List.length_map _

theorem getSessions_covers (value : Int → Option Text) (asked : u ∈ userIds) :
    ∃ session ∈ getSessions value userIds, session.userId = u := by
  refine ⟨_, List.mem_map_of_mem asked, ?_⟩
  cases value u with
  | none => rfl
  | some addr => rfl

theorem mem_getSessions (member : session ∈ getSessions value userIds) :
    session.hasSession = (value session.userId).isSome ∧
      session.addr = cStr ((value session.userId).getD []) := by
  obtain ⟨userId, -, rfl⟩ := List.mem_map.mp member
  cases found : value userId with
  | none => simp only [found]; exact ⟨rfl, rfl⟩
  | some addr => simp only [found]; exact ⟨rfl, rfl⟩

end Tinyim.Dbproxy
