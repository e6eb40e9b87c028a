import Mathlib.Logic.Function.Basic
import Tinyim.Logic.SendtoPeers

/-! The two loops of `LogicServiceImpl::SendtoPeers` with their indices. The first one
fills `channel_vec` for the online users only, the second one walks the sessions, the users,
the id reply and `channel_vec` at four different positions. -/
namespace Tinyim.Logic
open Dbproxy

structure Channel where
  addr : Text
  deriving DecidableEq, Repr

/-- `access_map_`, which all tasks of a process share. Its elements are never moved,
initialised again or erased, so that a pointer to one stands for the channel. -/
abbrev AccessMap := Text → Option Channel

structure SendtoAccessCall where
  channel : Channel
  msg : Msg
  deriving DecidableEq, Repr

/-- The body of the first loop for a user with a session. -/
def channelOf (accessMap : AccessMap) (addr : Text) : AccessMap × Channel :=
  match accessMap addr with
  | some channel => (accessMap, channel)
  | none => (Function.update accessMap addr (some ⟨cStr addr⟩), ⟨cStr addr⟩)

/-- The first loop, which holds the lock. -/
def fillChannels (accessMap : AccessMap) : List Session → AccessMap × List Channel
  | [] => (accessMap, [])
  | session :: sessions =>
    if session.hasSession then
      let (extended, channel) := channelOf accessMap session.addr
      let (final, channelVec) := fillChannels extended sessions
      (final, channel :: channelVec)
    else fillChannels accessMap sessions

/-- The second loop from position `i` on, with `rounds` positions left; `none` is an index
outside one of the lists. -/
def issueCalls (args : SendtoPeersArgs) (userIds : List Int) (sessions : List Session)
    (channelVec : List Channel) : (rounds i j : Nat) → Option (List SendtoAccessCall)
  | 0, _, _ => some []
  | rounds + 1, i, j => do
    let session ← sessions[i]?
    if session.hasSession then
      let userId ← userIds[i]?
      let ids ← args.idReply[i + 1]?
      let channel ← channelVec[j]?
      let later ← issueCalls args userIds sessions channelVec rounds (i + 1) (j + 1)
      return ⟨channel, pushedMsg args userId ids⟩ :: later
    else issueCalls args userIds sessions channelVec rounds (i + 1) j

/-- The logging loop reads a session for every user. -/
def logSessions (userIds : List Int) (sessions : List Session) : Option (List Session) :=
  (List.range userIds.length).mapM fun i => sessions[i]?

/-- The whole task, from the result of `GetSessions` on. -/
def sendtoPeersTask (accessMap : AccessMap) (args : SendtoPeersArgs) :
    Rpc (List Session) → Option (AccessMap × List SendtoAccessCall)
  | .error _ => some (accessMap, [])
  | .ok sessions => do
    let _ ← logSessions (recipients args) sessions
    let (extended, channelVec) := fillChannels accessMap sessions
    let calls ← issueCalls args (recipients args) sessions channelVec sessions.length 0 0
    return (extended, calls)

/-- The map after the first loops of earlier tasks, in the order in which they got the lock. -/
def accessMapAfter (earlier : List (List Session)) : AccessMap :=
  earlier.foldl (fun accessMap sessions => (fillChannels accessMap sessions).1) fun _ => none

/-- A channel stands under the address that it was initialised with. -/
def Initialised (accessMap : AccessMap) : Prop :=
  ∀ addr channel, accessMap addr = some channel → channel.addr = cStr addr

def onlineChannels (sessions : List Session) : List Channel :=
  (sessions.filter (·.hasSession)).map fun session => ⟨cStr session.addr⟩

theorem channelOf_initialised (initialised : Initialised accessMap) (addr : Text) :
    Initialised (channelOf accessMap addr).1 ∧ (channelOf accessMap addr).2 = ⟨cStr addr⟩ := by
  cases known : accessMap addr with
  | some channel =>
      simp only [channelOf, known]
      refine ⟨initialised, ?_⟩
      rw [← initialised addr channel known]
  | none =>
      refine ⟨?_, by simp only [channelOf, known]⟩
      simp only [channelOf, known]
      intro other channel found
      rw [Function.update_apply] at found
      split at found
      · rename_i same
        cases found
        rw [same]
      · exact initialised other channel found

theorem fillChannels_initialised (initialised : Initialised accessMap)
    (sessions : List Session) :
    Initialised (fillChannels accessMap sessions).1 ∧
      (fillChannels accessMap sessions).2 = onlineChannels sessions := by
  induction sessions generalizing accessMap with
  | nil => exact ⟨initialised, rfl⟩
  | cons session sessions ih =>
      cases online : session.hasSession with
      | true =>
          obtain ⟨extended, channel⟩ := channelOf_initialised initialised session.addr
          obtain ⟨final, channelVec⟩ := ih extended
          simp only [fillChannels, online, if_true]
          refine ⟨final, ?_⟩
          rw [channelVec, channel]
          simp only [onlineChannels, List.filter_cons, online, if_true, List.map_cons]
      | false =>
          obtain ⟨final, channelVec⟩ := ih initialised
          simp only [fillChannels, online, Bool.false_eq_true, if_false]
          refine ⟨final, ?_⟩
          rw [channelVec]
          simp only [onlineChannels, List.filter_cons, online, Bool.false_eq_true, if_false]

theorem accessMapAfter_initialised (earlier : List (List Session)) :
    Initialised (accessMapAfter earlier) := by
  have kept : ∀ accessMap, Initialised accessMap → Initialised (earlier.foldl
      (fun accessMap sessions => (fillChannels accessMap sessions).1) accessMap) := by
    induction earlier with
    | nil => exact fun _ initialised => initialised
    | cons sessions earlier ih =>
        intro accessMap initialised
        exact ih _ (fillChannels_initialised initialised sessions).1
  exact kept _ nofun

theorem get_of_drop {list : List α} {i : Nat} (rest : list.drop i = x :: later) :
    list[i]? = some x ∧ list.drop (i + 1) = later := by
  constructor
  · have first := congrArg (·[0]?) rest
    simpa only [List.getElem?_drop, Nat.add_zero, List.getElem?_cons_zero] using first
  · rw [← List.tail_drop, rest, List.tail_cons]

def callFor (args : SendtoPeersArgs) : (Int × MsgIds) × Session → Option SendtoAccessCall
  | ((userId, ids), session) =>
    if session.hasSession then some ⟨⟨cStr session.addr⟩, pushedMsg args userId ids⟩ else none

/-- At every position the lists that are left belong together, whatever the number of
offline users before. The induction is on the sessions left. -/
theorem issueCalls_eq {args : SendtoPeersArgs} {i j : Nat} (sessionsLeft : sessions.drop i = left)
    (usersLeft : userIds.drop i = users) (idsLeft : args.idReply.drop (i + 1) = ids)
    (channelsLeft : channelVec.drop j = onlineChannels left)
    (sameUsers : users.length = left.length) (sameIds : ids.length = left.length) :
    issueCalls args userIds sessions channelVec left.length i j =
      some (((users.zip ids).zip left).filterMap (callFor args)) := by
  induction left generalizing i j users ids with
  | nil =>
      rw [List.zip_nil_right]
      rfl
  | cons session left ih =>
      obtain ⟨userId, users, rfl⟩ := List.exists_cons_of_length_eq_add_one sameUsers
      obtain ⟨own, ids, rfl⟩ := List.exists_cons_of_length_eq_add_one sameIds
      obtain ⟨sessionHere, sessionsLeft⟩ := get_of_drop sessionsLeft
      obtain ⟨userHere, usersLeft⟩ := get_of_drop usersLeft
      obtain ⟨idsHere, idsLeft⟩ := get_of_drop idsLeft
      have sameUsers := Nat.succ.inj sameUsers
      have sameIds := Nat.succ.inj sameIds
      cases online : session.hasSession with
      | true =>
          have channels : channelVec.drop j = ⟨cStr session.addr⟩ :: onlineChannels left := by
            rw [channelsLeft]
            simp only [onlineChannels, List.filter_cons, online, if_true, List.map_cons]
          obtain ⟨channelHere, channelsLeft⟩ := get_of_drop channels
          have later := ih sessionsLeft usersLeft idsLeft channelsLeft sameUsers sameIds
          simp only [List.length_cons, issueCalls, sessionHere, online, userHere, idsHere,
            channelHere, later, Option.bind_eq_bind, Option.bind_some, if_true, Option.pure_def,
            List.zip_cons_cons, List.filterMap_cons, callFor]
      | false =>
          have channels : channelVec.drop j = onlineChannels left := by
            rw [channelsLeft]
            simp only [onlineChannels, List.filter_cons, online, Bool.false_eq_true, if_false]
          have later := ih sessionsLeft usersLeft idsLeft channels sameUsers sameIds
          simp only [List.length_cons, issueCalls, sessionHere, online, later,
            Option.bind_eq_bind, Option.bind_some, Bool.false_eq_true, if_false,
            List.zip_cons_cons, List.filterMap_cons, callFor]

theorem logSessions_defined (covered : userIds.length ≤ sessions.length) :
    ∃ logged, logSessions userIds sessions = some logged := by
  suffices ∀ positions : List Nat, (∀ i ∈ positions, i < sessions.length) →
      ∃ logged, positions.mapM (fun i => sessions[i]?) = some logged from
    this _ fun i member => (List.mem_range.mp member).trans_le covered
  intro positions inside
  induction positions with
  | nil => exact ⟨[], rfl⟩
  | cons i positions ih =>
      obtain ⟨logged, later⟩ := ih fun k member => inside k (List.mem_cons_of_mem _ member)
      obtain ⟨session, here⟩ : ∃ session, sessions[i]? = some session :=
        ⟨_, List.getElem?_eq_getElem (inside i List.mem_cons_self)⟩
      refine ⟨session :: logged, ?_⟩
      simp only [List.mapM_cons, here, later, Option.bind_eq_bind, Option.bind_some,
        Option.pure_def]

theorem cStr_cStr (text : Text) : cStr (cStr text) = cStr text := List.takeWhile_idem

theorem filterMap_callFor (args : SendtoPeersArgs) (value : Int → Option Text)
    (idReply : List MsgIds) :
    (((idReply.map MsgIds.userId).zip idReply).zip
      (getSessions value (idReply.map MsgIds.userId))).filterMap (callFor args) =
      idReply.filterMap fun ids => (value ids.userId).map fun addr =>
        ⟨⟨cStr addr⟩, pushedMsg args ids.userId ids⟩ := by
  induction idReply with
  | nil => rfl
  | cons ids rest ih =>
      simp only [getSessions, List.map_cons, List.zip_cons_cons, List.filterMap_cons,
        callFor] at ih ⊢
      rw [ih]
      cases value ids.userId with
      | none => rfl
      | some addr => simp only [if_true, cStr_cStr, Option.map_some]

/-- With one session for each recipient, the task issues one call for each entry of the id
reply after the first whose user is online, in that order: the calls of the flat loop. -/
theorem sendtoPeersTask_eq {args : SendtoPeersArgs} (initialised : Initialised accessMap)
    (value : Int → Option Text)
    (answers : args.idReply.map MsgIds.userId = args.idRequest.map UserAndIdNum.userId) :
    ∃ extended calls,
      sendtoPeersTask accessMap args (.ok (getSessions value (recipients args))) =
        some (extended, calls) ∧
      Initialised extended ∧
      calls = (args.idReply.drop 1).filterMap (fun ids => (value ids.userId).map fun addr =>
        ⟨⟨cStr addr⟩, pushedMsg args ids.userId ids⟩) ∧
      calls.map (fun call => (call.channel.addr, call.msg)) =
        sendtoPeers args (getSessions value (recipients args)) := by
  have users : recipients args = (args.idReply.drop 1).map MsgIds.userId := by
    rw [recipients, List.map_drop, List.map_drop, answers]
  have sameSessions : (recipients args).length = (getSessions value (recipients args)).length :=
    length_getSessions.symm
  have sameIds : (args.idReply.drop 1).length =
      (getSessions value (recipients args)).length := by
    rw [← sameSessions, users, List.length_map]
  obtain ⟨extended, channelVec⟩ :=
    fillChannels_initialised initialised (getSessions value (recipients args))
  obtain ⟨logged, log⟩ := logSessions_defined sameSessions.le
  have issued : issueCalls args (recipients args) (getSessions value (recipients args))
      (onlineChannels (getSessions value (recipients args)))
      (getSessions value (recipients args)).length 0 0 =
      some ((((recipients args).zip (args.idReply.drop 1)).zip
        (getSessions value (recipients args))).filterMap (callFor args)) :=
    issueCalls_eq List.drop_zero List.drop_zero rfl List.drop_zero sameSessions sameIds
  have flat : (((recipients args).zip (args.idReply.drop 1)).zip
      (getSessions value (recipients args))).filterMap (callFor args) =
      (args.idReply.drop 1).filterMap fun ids => (value ids.userId).map fun addr =>
        ⟨⟨cStr addr⟩, pushedMsg args ids.userId ids⟩ := by
    rw [users]
    exact filterMap_callFor args value (args.idReply.drop 1)
  refine ⟨_, _, ?_, extended, flat, ?_⟩
  · simp only [sendtoPeersTask, log, channelVec, issued, Option.bind_eq_bind, Option.bind_some,
      Option.pure_def]
  · rw [flat, sendtoPeers_eq value answers, List.map_filterMap]
    refine List.filterMap_congr fun ids _ => ?_
    rw [Option.map_map]
    rfl

end Tinyim.Logic
