import Tinyim.Logic.SendtoPeers
import Tinyim.Delivery.Contract

/-! A message reaches an online recipient as a pushed copy, built by logic, and as a pulled
one, built from its row. Both come from one id reply and differ in the text and the receiver. -/
namespace Tinyim.Delivery
open Dbproxy Logic Transition

/-- The id reply answers the id request that a save goes on with and a task is started with. -/
def Attempt.Prepared (att : Attempt) : Prop :=
  match att.stage with
  | .save idRequest _ => att.idReply.map MsgIds.userId = idRequest.map UserAndIdNum.userId
  | .finished (.accepted _ args) =>
      att.idReply.map MsgIds.userId = args.idRequest.map UserAndIdNum.userId ∧
      ∃ request, att.request = some request ∧
        args = sendtoPeersArgs att.newMsg args.idRequest att.idReply request.msgTime
  | _ => True

/-- The attempts of a consistent state, with what their tasks get. -/
structure HandsOver (listed : Int → List Int → Prop) (w : World) : Prop where
  consistent : Consistent listed w
  prepared : ∀ (a : Nat) att, w.attempts[a]? = some att → att.Prepared

variable {listed : Int → List Int → Prop} {n : Int} {w w₀ w' : World} {e : Event} {a : Nat}
  {att next : Attempt}

theorem Attempt.Prepared.evolves (shape : att.Shape listed) (prepared : att.Prepared)
    (evolved : Evolves n w w' a att e next) : next.Prepared := by
  cases evolved with
  | kept => exact prepared
  | identified user =>
      obtain ⟨idRequest, stage, -⟩ := nextUser_eq_some user
      simp only [Attempt.Prepared, stage]
  | idRefused => trivial
  | advanced adv =>
      cases adv with
      | redisHit stage => simp only [Attempt.Prepared, stage]
      | redisMiss stage => simp only [Attempt.Prepared, stage]
      | selected stage => simp only [Attempt.Prepared, stage]
      | lookedUp stage lookup =>
          rename_i data
          obtain ⟨-, after⟩ | ⟨-, ⟨-, after⟩ | ⟨-, after⟩⟩ :=
            afterGetUserLastSendData_cases att.newMsg data
          · simp only [Attempt.Prepared, after]
          · simp only [Attempt.Prepared, after]
          · simp only [Attempt.Prepared, after]
      | groupMembers => trivial
      | idReplied stage complete built =>
          simp only [Attempt.Shape, stage] at shape
          exact shape.2.2.eq_of_length (by simpa using complete)
      | saveReplied stage present asked returned =>
          rename_i idRequest request j job result
          simp only [Attempt.Prepared, stage] at prepared
          simp only [Attempt.Shape, stage] at shape
          obtain ⟨_, error, -, after⟩ | ⟨-, after⟩ | ⟨-, after⟩ :=
            afterSave_cases att.newMsg idRequest att.idReply request result
          · simp only [Attempt.Prepared, after]
          · simp only [Attempt.Prepared, after]
          · simp only [Attempt.Prepared, after]
            exact ⟨prepared, request, shape.1, rfl⟩
      | failed => trivial

namespace HandsOver

theorem initial (initial : Initial w) : HandsOver listed w where
  consistent := initial_consistent initial
  prepared a att found := by simp [initial.attempts] at found

theorem step (hands : HandsOver listed w) (lists : Lists listed w e) (moved : Moves n w e w') :
    HandsOver listed w' where
  consistent := hands.consistent.step lists moved
  prepared a att found := by
    obtain ⟨m, -, rfl, -⟩ | ⟨old, present, evolved⟩ := attempt_before moved found
    · trivial
    · exact (hands.prepared a old present).evolves (hands.consistent.shape a old present) evolved

theorem run (initial : Initial w₀) (run : Run (Delivery.step n) allowed w₀ es w) :
    HandsOver (fun _ _ => True) w :=
  run.invariant (HandsOver fun _ _ => True) (fun hands _ stepped =>
    hands.step (lists_any _ _) (moves_of_step stepped)) (.initial initial)

theorem accepted (hands : HandsOver listed w) (found : w.attempts[a]? = some att)
    (finished : att.stage = .finished (.accepted reply args)) :
    ∃ request, Built listed att.newMsg att.idReply request ∧
      att.idReply.map MsgIds.userId = args.idRequest.map UserAndIdNum.userId ∧
      args = sendtoPeersArgs att.newMsg args.idRequest att.idReply request.msgTime ∧
      ∀ ids ∈ att.idReply, participantRow att.newMsg request.msgTime ids ∈ w.messages := by
  have prepared := hands.prepared a att found
  simp only [Attempt.Prepared, finished] at prepared
  obtain ⟨answers, request, requested, handed⟩ := prepared
  obtain ⟨j, job, present, asked, saved⟩ :=
    hands.consistent.accepted a att reply args found finished
  obtain ⟨owner, owned, requested', built⟩ := hands.consistent.built present
  rw [asked] at owned
  cases found.symm.trans owned
  cases requested.symm.trans requested'
  refine ⟨job.request, built, answers, handed, ?_⟩
  intro ids served
  have stated : participantRow att.newMsg job.request.msgTime ids ∈
      job.request.statements.flatten := by
    rw [built.rows]
    exact List.mem_map_of_mem served
  obtain ⟨rows, statement, inside⟩ := List.mem_flatten.mp stated
  exact hands.consistent.complete_rows present (hands.consistent.saved j job present saved)
    rows statement _ inside

end HandsOver

theorem pushedMsg_eq_pulled_iff (m : NewMsg) (idRequest : List UserAndIdNum)
    (idReply : List MsgIds) (msgTime : Int) (ids : MsgIds) :
    pushedMsg (sendtoPeersArgs m idRequest idReply msgTime) ids.userId ids =
        (participantRow m msgTime ids).pulled ↔
      nul ∉ m.message ∧ ids.userId = m.peerId := by
  constructor
  · intro same
    exact ⟨cStr_eq_self_iff.mp (congrArg Msg.message same), congrArg Msg.receiver same⟩
  · rintro ⟨plain, same⟩
    have text := cStr_eq_self_iff.mpr plain
    cases kind : m.msgType with
    | PRIVATE =>
        simp only [pushedMsg, sendtoPeersArgs, Row.pulled, participantRow, kind, text, same]
    | GROUP => simp only [pushedMsg, sendtoPeersArgs, Row.pulled, participantRow, kind, text, same]

theorem Built.recipient_private (built : Built listed m idReply r) (kind : m.msgType = .PRIVATE)
    (member : ids ∈ idReply.drop 1) : ids.userId = m.peerId := by
  obtain ⟨own, peer, rfl, -, peerUser, -⟩ := built.private_reply kind
  rw [List.drop_succ_cons, List.drop_zero, List.mem_singleton] at member
  rw [member, peerUser]

/-- In every run and for every sessions, the copy pushed to a recipient of an accepted message
is the one copy of it that the recipient pulls exactly if no NUL cuts the text off and the
receiver is the peer, as it is in every private message. -/
theorem pushed_is_pulled_iff (initial : Initial w₀)
    (run : Run (step n) (fun _ _ => True) w₀ es w) {a : Nat} (found : w.attempts[a]? = some att)
    (finished : att.stage = .finished (.accepted reply args)) (value : Int → Option Text)
    (pushed : (addr, msg) ∈ sendtoPeers args (getSessions value (recipients args))) :
    ∃ pulled,
      (∀ first last, pulled ∈ getMsgs w.messages msg.userId first last ↔
        first ≤ msg.msgId ∧ msg.msgId ≤ last) ∧
      (∀ first last, ∀ other ∈ getMsgs w.messages msg.userId first last,
        other.sender = att.newMsg.userId → other.clientTime = att.newMsg.clientTime →
          other = pulled) ∧
      (msg = pulled ↔ nul ∉ att.newMsg.message ∧
        (att.newMsg.msgType = .PRIVATE ∨ msg.userId = att.newMsg.peerId)) := by
  have hands := HandsOver.run initial run
  obtain ⟨request, built, answers, handed, stored⟩ := hands.accepted found finished
  have sameReply : args.idReply = att.idReply := congrArg SendtoPeersArgs.idReply handed
  rw [sendtoPeers_eq value (sameReply ▸ answers), sameReply] at pushed
  obtain ⟨ids, served, sent⟩ := List.mem_filterMap.mp pushed
  obtain ⟨target, -, sent⟩ := Option.map_eq_some_iff.mp sent
  obtain ⟨-, rfl⟩ := Prod.mk.inj sent
  have row := stored ids (List.mem_of_mem_drop served)
  refine ⟨(participantRow att.newMsg request.msgTime ids).pulled, ?_, ?_, ?_⟩
  · intro first last
    constructor
    · intro answered
      obtain ⟨other, -, -, lower, upper, -, same⟩ := mem_getMsgs.mp answered
      have id : ids.startMsgId = other.msgId := congrArg Msg.msgId same
      rw [← id] at lower upper
      exact ⟨lower, upper⟩
    · rintro ⟨lower, upper⟩
      exact mem_getMsgs.mpr ⟨_, row, rfl, lower, upper, rfl, rfl⟩
  · intro first last other answered sender time
    obtain ⟨otherRow, present, user, -, -, -, rfl⟩ := mem_getMsgs.mp answered
    have key : otherRow.key = (participantRow att.newMsg request.msgTime ids).key :=
      congrArg₂ Prod.mk user (congrArg₂ Prod.mk sender time)
    rw [hands.consistent.keys.eq present row key]
  · rw [handed, pushedMsg_eq_pulled_iff]
    refine and_congr_right fun _ => ⟨.inr, ?_⟩
    rintro (kind | same)
    · exact Built.recipient_private built kind served
    · exact same

/-- User 7 sends "hi" to user 8 and is acknowledged. -/
def privatePush : List Event :=
  [.start ⟨7, 8, .PRIVATE, "hi".toList, 100, 0⟩, .redisGet 0 .value, .select 0 true, .lookedUp 0,
    .idGenerate 0 {}, .idGenerate 0 {}, .idReplied 0 50, .saveArrives 0, .insert 0 .executed,
    .setLastSend 0 true true, .saveReplied 0 0]

def pushArgs (peerId : Int) (msgType : MsgType) : SendtoPeersArgs where
  idRequest := [⟨7, 1⟩, ⟨8, 1⟩]
  idReply := [⟨7, 1, 1⟩, ⟨8, 1, 1⟩]
  newMsg := ⟨7, peerId, msgType, "hi".toList, 100, 50⟩
  sender := 7

theorem pushed_is_pulled_iff_private :
    ∃ w msg, Run (step 1024) (fun _ _ => True) .empty privatePush w ∧
      w.attempts[0]?.map Attempt.stage =
        some (.finished (.accepted ⟨1, 1, 50⟩ (pushArgs 8 .PRIVATE))) ∧
      sendtoPeers (pushArgs 8 .PRIVATE) (getSessions (fun _ => some "a:1".toList) [8]) =
        [("a:1".toList, msg)] ∧
      msg ∈ getMsgs w.messages 8 1 1 := by
  obtain ⟨w, run, reached⟩ : ∃ w, Run (step 1024) (fun _ _ => True) .empty privatePush w ∧ _ :=
    Run.of_check (step 1024) (fun _ _ => true) .empty privatePush
      (fun w => decide (
        w.attempts[0]?.map Attempt.newMsg = some ⟨7, 8, .PRIVATE, "hi".toList, 100, 0⟩ ∧
        w.attempts[0]?.map Attempt.stage =
          some (.finished (.accepted ⟨1, 1, 50⟩ (pushArgs 8 .PRIVATE)))))
      (fun _ _ _ => trivial) (by decide)
  obtain ⟨started, accepted⟩ := of_decide_eq_true reached
  obtain ⟨att, found, stage⟩ := Option.map_eq_some_iff.mp accepted
  rw [found, Option.map_some, Option.some.injEq] at started
  have sent : ("a:1".toList, Msg.mk 8 1 7 8 "hi".toList 0 100 50) ∈ sendtoPeers
      (pushArgs 8 .PRIVATE) (getSessions (fun _ => some "a:1".toList)
        (recipients (pushArgs 8 .PRIVATE))) := by decide
  obtain ⟨pulled, stored, -, agrees⟩ :=
    pushed_is_pulled_iff initial_empty run found stage (fun _ => some "a:1".toList) sent
  rw [started] at agrees
  refine ⟨w, ⟨8, 1, 7, 8, "hi".toList, 0, 100, 50⟩, run, accepted, rfl, ?_⟩
  rw [agrees.mpr (by decide)]
  exact (stored 1 1).mpr (by decide)

/-- User 7 sends "hi" to the members 7 and 8 of group 5 and is acknowledged. -/
def groupPush : List Event :=
  [.start ⟨7, 5, .GROUP, "hi".toList, 100, 0⟩, .redisGet 0 .value, .select 0 true, .lookedUp 0,
    .groupMembers 0 [7, 8], .idGenerate 0 {}, .idGenerate 0 {}, .idReplied 0 50, .saveArrives 0,
    .insert 0 .executed, .insert 0 .executed, .setLastSend 0 true true, .saveReplied 0 0]

/-- The pushed copy names user 8 as the receiver and the pulled copy names the group. -/
theorem group_push_differs :
    ∃ w pushed pulled, Run (step 1024) (fun _ _ => True) .empty groupPush w ∧
      w.attempts[0]?.map Attempt.stage =
        some (.finished (.accepted ⟨1, 1, 50⟩ (pushArgs 5 .GROUP))) ∧
      sendtoPeers (pushArgs 5 .GROUP) (getSessions (fun _ => some "a:1".toList) [8]) =
        [("a:1".toList, pushed)] ∧
      getMsgs w.messages 8 1 1 = [pulled] ∧ pushed.receiver = 8 ∧ pulled.receiver = 5 ∧
      pushed ≠ pulled := by
  obtain ⟨w, run, reached⟩ : ∃ w, Run (step 1024) (fun _ _ => True) .empty groupPush w ∧ _ :=
    Run.of_check (step 1024) (fun _ _ => true) .empty groupPush
      (fun w => decide (w.attempts[0]?.map Attempt.stage =
          some (.finished (.accepted ⟨1, 1, 50⟩ (pushArgs 5 .GROUP))) ∧
        getMsgs w.messages 8 1 1 = [⟨8, 1, 7, 5, "hi".toList, 5, 100, 50⟩]))
      (fun _ _ _ => trivial) (by decide)
  obtain ⟨accepted, stored⟩ := of_decide_eq_true reached
  exact ⟨w, ⟨8, 1, 7, 8, "hi".toList, 5, 100, 50⟩, _, run, accepted, rfl, stored, rfl, rfl,
    by decide⟩

end Tinyim.Delivery
