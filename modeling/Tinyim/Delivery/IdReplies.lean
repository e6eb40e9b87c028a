import Tinyim.Idgen.Service
import Tinyim.Delivery.Numbering
import Tinyim.Delivery.PushedCopies

/-! The id reply seen from logic, which reads it by position: entry 0 for the sender,
entry 1 for the peer, entry `i + 1` for recipient `i`. -/
namespace Tinyim.Delivery
open IdGen Dbproxy Logic Transition

/-- Ids are asked for, and idgen does not restart on a negative counter. -/
def NonnegIds (w : World) : Event → Prop
  | .strayIds _ _ needMsgidNum => 1 ≤ needMsgidNum
  | .idgenRestarts => ∀ userId, 0 ≤ stored w.idgen userId
  | _ => True

theorem KeepsIds.nonneg (keeps : KeepsIds e) (w : World) : NonnegIds w e := by
  cases e with
  | strayIds => exact keeps
  | idgenRestarts => exact keeps.elim
  | start | redisGet | select | lookedUp | groupMembers | idGenerate | idReplied | saveArrives
  | insert | setLastSend | saveReplied | rpcFails | redisExpires => trivial

/-- The access `msg_ids(i)` is in range and reads an entry of the user. -/
def BelongsTo (idReply : List MsgIds) (i : Nat) (userId : Int) : Prop :=
  ∃ ids, idReply[i]? = some ids ∧ ids.userId = userId ∧ 1 ≤ ids.startMsgId

structure SoundIds (w : World) : Prop where
  hands : HandsOver (fun _ _ => True) w
  nonneg : ∀ userId, 0 ≤ lastId w.idgen userId
  positive : ∀ (a : Nat) att, w.attempts[a]? = some att → ∀ ids ∈ att.idReply, 1 ≤ ids.startMsgId
  running : ∀ (a : Nat) att, w.attempts[a]? = some att → att.stage ≠ .finished .aborted

variable {n : Int} {w w₀ w' : World} {e : Event} {a : Nat} {att next : Attempt}

/-- The execution of `IdGenServiceImpl::IdGenerate` that an attempt waits for. -/
def Attempt.idCall (att : Attempt) (idRequest : List UserAndIdNum) : IdCall where
  userIds := idRequest
  i := att.idReply.length
  msgIds := att.idReply

/-- The next user of an attempt is the one that the handler serves in its next round, and
the ids go to the end of the reply in both. -/
theorem idCall_round (stage : att.stage = .idGenerate idRequest)
    (user : att.nextUser = some requested) (startId : Int) :
    (att.idCall idRequest).next = some requested ∧
      (att.identified requested (.ok startId)).idCall idRequest =
        (att.idCall idRequest).answered requested (.ok startId) := by
  constructor
  · simpa only [Attempt.nextUser, stage, IdCall.next, Attempt.idCall] using user
  · simp only [Attempt.idCall, Attempt.identified, IdCall.answered, List.length_append,
      List.length_singleton]

theorem idCall_succeeded (stage : att.stage = .idGenerate idRequest)
    (replied : att.idReplied msgTime = some next) : (att.idCall idRequest).Succeeded := by
  simp only [Attempt.idReplied, stage, Option.ite_none_right_eq_some] at replied
  exact ⟨rfl, replied.1.ge⟩

theorem lastId_nonneg_served (nonneg : ∀ u, 0 ≤ lastId s u) (need1 : 1 ≤ need)
    (served : IdGen.idGenerate n disk userId need s = some (result, t)) (u : Int) :
    0 ≤ lastId t u := by
  cases result with
  | error reason => exact lastId_refused served ▸ nonneg u
  | ok startId =>
      rw [(lastId_served (nonneg userId) need1 served).2, Function.update_apply]
      split
      · have before := nonneg userId
        omega
      · exact nonneg u

namespace SoundIds

theorem initial (initial : Initial w) (nonneg : ∀ userId, 0 ≤ lastId w.idgen userId) :
    SoundIds w where
  hands := .initial initial
  nonneg := nonneg
  positive a att found := by simp [initial.attempts] at found
  running a att found := by simp [initial.attempts] at found

theorem lastId_step (sound : SoundIds w) (ids : NonnegIds w e) (moved : Moves n w e w')
    (userId : Int) : 0 ≤ lastId w'.idgen userId := by
  cases moved with
  | identified found user served =>
      have need := nextUser_need sound.hands.consistent found user
      exact lastId_nonneg_served sound.nonneg (by rw [need]) served userId
  | idRefused found user served =>
      have need := nextUser_need sound.hands.consistent found user
      exact lastId_nonneg_served sound.nonneg (by rw [need]) served userId
  | strayed served => exact lastId_nonneg_served sound.nonneg ids served userId
  | idgenRestarted =>
      rw [restart, lastId_init]
      exact ids userId
  | started | advanced | saveArrived | inserted | insertRefused | lastSendSet | redisExpired =>
      exact sound.nonneg userId

theorem positive_step (sound : SoundIds w) (found : w.attempts[a]? = some att)
    (evolved : Evolves n w w' a att e next) (held : ids ∈ next.idReply) :
    1 ≤ ids.startMsgId := by
  cases evolved with
  | kept | idRefused => exact sound.positive a att found ids held
  | advanced adv => cases adv <;> exact sound.positive a att found ids held
  | identified user served =>
      obtain old | new := List.mem_append.mp held
      · exact sound.positive a att found ids old
      · have need := nextUser_need sound.hands.consistent found user
        rw [List.mem_singleton.mp new, (lastId_served (sound.nonneg _) (by rw [need]) served).1]
        exact Int.le_add_of_nonneg_left (sound.nonneg _)

theorem senderMsgId_ne_zero (sound : SoundIds w) (found : w.attempts[a]? = some att)
    (requested : att.request = some request) : request.senderMsgId ≠ 0 := by
  have built := (sound.hands.consistent.shape a att found).built requested
  obtain ⟨own, others, reply, -, same, -⟩ := built.first_row
  have positive := sound.positive a att found own (reply ▸ List.mem_cons_self)
  omega

theorem running_step (sound : SoundIds w) (found : w.attempts[a]? = some att)
    (evolved : Evolves n w w' a att e next) : next.stage ≠ .finished .aborted := by
  have shape := sound.hands.consistent.shape a att found
  intro finished
  cases evolved with
  | kept | identified => exact sound.running a att found finished
  | idRefused => cases finished
  | advanced adv =>
      cases adv with
      | redisHit | redisMiss | selected => exact sound.running a att found finished
      | lookedUp => cases (duplicate_of_finished finished).2
      | saveReplied stage present asked returned =>
          rename_i idRequest request j job result
          simp only [Attempt.Shape, stage] at shape
          obtain ⟨_, _, -, after⟩ | ⟨zero, -⟩ | ⟨-, after⟩ :=
            afterSave_cases att.newMsg idRequest att.idReply request result
          · cases after.symm.trans finished
          · exact sound.senderMsgId_ne_zero found shape.1 zero
          · cases after.symm.trans finished
      | groupMembers | idReplied | failed => cases finished

theorem step (sound : SoundIds w) (ids : NonnegIds w e) (moved : Moves n w e w') :
    SoundIds w' where
  hands := sound.hands.step (lists_any w e) moved
  nonneg := sound.lastId_step ids moved
  positive a att found ids held := by
    obtain ⟨m, -, rfl, -⟩ | ⟨old, present, evolved⟩ := attempt_before moved found
    · exact absurd held List.not_mem_nil
    · exact sound.positive_step present evolved held
  running a att found := by
    obtain ⟨m, -, rfl, -⟩ | ⟨old, present, evolved⟩ := attempt_before moved found
    · nofun
    · exact sound.running_step present evolved

theorem belongsTo {idRequest : List UserAndIdNum} (sound : SoundIds w)
    (found : w.attempts[a]? = some att)
    (answers : att.idReply.map MsgIds.userId = idRequest.map UserAndIdNum.userId) {i : Nat}
    (asked : idRequest[i]? = some user) : BelongsTo att.idReply i user.userId := by
  have place := congrArg (·[i]?) answers
  simp only [List.getElem?_map, asked, Option.map_some, Option.map_eq_some_iff] at place
  obtain ⟨ids, held, same⟩ := place
  exact ⟨ids, held, same, sound.positive a att found ids (List.mem_of_getElem? held)⟩

end SoundIds

/-- Part one is about the service: a successful reply has an entry for each entry of the
request, in its order, with ids from one on that no other entry of the user has. Part two
is about every attempt of logic: it never stops the process, a complete reply always makes a
save request, and past `IdGenerate` the attempt finds the entries of the sender, of the peer and
of every recipient at their positions. -/
theorem id_replies_aligned :
    (∀ {n db es s call} {k : Nat}, (∀ u v, db u = some v → 0 ≤ v) →
      Run (serve n) (fun _ e => AsksIds e) ⟨.init db, []⟩ es s →
      s.calls[k]? = some call → call.Succeeded → Aligned call.userIds call.msgIds) ∧
    ∀ {n w₀ es w att} {a : Nat}, Initial w₀ → (∀ u, 0 ≤ lastId w₀.idgen u) →
      Run (step n) NonnegIds w₀ es w → w.attempts[a]? = some att →
      att.stage ≠ .finished .aborted ∧
      (∀ idRequest msgTime, att.stage = .idGenerate idRequest →
        att.idReply.length = idRequest.length → ∃ next, att.idReplied msgTime = some next) ∧
      (∀ request, att.request = some request →
        request.senderMsgId ≠ 0 ∧ BelongsTo att.idReply 0 att.newMsg.userId ∧
        (att.newMsg.msgType = .PRIVATE → BelongsTo att.idReply 1 att.newMsg.peerId) ∧
        ∃ idRequest, RequestOf (fun _ _ => True) att.newMsg idRequest ∧
          att.idReply.length = idRequest.length ∧
          ∀ (i : Nat) user, idRequest[i]? = some user → BelongsTo att.idReply i user.userId) ∧
      ∀ reply args, att.stage = .finished (.accepted reply args) →
        ∀ (i : Nat) userId, (recipients args)[i]? = some userId →
          BelongsTo args.idReply (i + 1) userId := by
  refine ⟨fun nonneg run found succeeded => reply_aligned nonneg run found succeeded, ?_⟩
  intro n w₀ es w att a initial nonneg run found
  have sound : SoundIds w := run.invariant SoundIds
    (fun before ids stepped => before.step ids (moves_of_step stepped)) (.initial initial nonneg)
  refine ⟨sound.running a att found, ?_, ?_, ?_⟩
  · intro idRequest msgTime stage complete
    have shape := sound.hands.consistent.shape a att found
    simp only [Attempt.Shape, stage] at shape
    obtain ⟨request, built⟩ := saveRequest_defined shape.1 complete msgTime
    simp only [Attempt.idReplied, stage, complete, if_true, built, Option.map_some]
    exact ⟨_, rfl⟩
  · intro request requested
    have built := (sound.hands.consistent.shape a att found).built requested
    obtain ⟨idRequest, asked, answers⟩ := built.answers
    have place : ∀ (i : Nat) user, idRequest[i]? = some user →
        BelongsTo att.idReply i user.userId := fun _ _ => sound.belongsTo found answers
    obtain ⟨others, head⟩ := asked.head
    refine ⟨sound.senderMsgId_ne_zero found requested, ?_, ?_, idRequest, asked, ?_, place⟩
    · exact place 0 ⟨att.newMsg.userId, 1⟩ (by rw [head]; rfl)
    · intro kind
      simp only [RequestOf, kind] at asked
      exact place 1 ⟨att.newMsg.peerId, 1⟩ (by rw [asked]; rfl)
    · simpa using congrArg List.length answers
  · intro reply args finished i userId recipient
    obtain ⟨request, -, answers, handed, -⟩ := sound.hands.accepted found finished
    have sameReply : args.idReply = att.idReply := congrArg SendtoPeersArgs.idReply handed
    simp only [recipients, List.getElem?_map, List.getElem?_drop, Option.map_eq_some_iff,
      Nat.add_comm 1 i] at recipient
    obtain ⟨user, asked, rfl⟩ := recipient
    rw [sameReply]
    exact sound.belongsTo found answers asked

/-- User 7 asks for two ranges in one request while user 8 asks for one in another, and a
message of user 7 to a group of three is accepted. -/
theorem id_replies_aligned_group :
    (∃ s call, Run (serve 1024) (fun _ e => AsksIds e) ⟨.init fun _ => none, []⟩
        [.receive [⟨7, 3⟩, ⟨8, 1⟩, ⟨7, 2⟩], .receive [⟨8, 4⟩], .round 0 {}, .round 1 {},
          .round 0 {}, .round 0 {}] s ∧
      s.calls[0]? = some call ∧ call.msgIds = [⟨7, 1, 3⟩, ⟨8, 5, 1⟩, ⟨7, 4, 2⟩] ∧
      Aligned [⟨7, 3⟩, ⟨8, 1⟩, ⟨7, 2⟩] call.msgIds) ∧
    ∃ w att, Run (step 1024) NonnegIds .empty
        [.start ⟨7, 5, .GROUP, [], 100, 0⟩, .redisGet 0 .value, .select 0 true, .lookedUp 0,
          .groupMembers 0 [8, 7, 9], .idGenerate 0 {}, .idGenerate 0 {}, .idGenerate 0 {},
          .idReplied 0 50, .saveArrives 0, .insert 0 .executed, .insert 0 .executed,
          .insert 0 .executed, .setLastSend 0 true true, .saveReplied 0 0] w ∧
      w.attempts[0]? = some att ∧ att.idReply = [⟨7, 1, 1⟩, ⟨8, 1, 1⟩, ⟨9, 1, 1⟩] ∧
      att.stage ≠ .finished .aborted := by
  constructor
  · obtain ⟨s, run, checked⟩ := Run.of_check (serve 1024) (fun _ e => decide (AsksIds e))
      ⟨.init fun _ => none, []⟩
      [.receive [⟨7, 3⟩, ⟨8, 1⟩, ⟨7, 2⟩], .receive [⟨8, 4⟩], .round 0 {}, .round 1 {},
        .round 0 {}, .round 0 {}]
      (fun s => decide (s.calls[0]? = some ({
          userIds := [⟨7, 3⟩, ⟨8, 1⟩, ⟨7, 2⟩], i := 3,
          msgIds := [⟨7, 1, 3⟩, ⟨8, 5, 1⟩, ⟨7, 4, 2⟩] } : IdCall)))
      (fun _ _ => of_decide_eq_true) (by decide)
    have found := of_decide_eq_true checked
    exact ⟨s, _, run, found, rfl,
      id_replies_aligned.1 (by simp) run found ⟨rfl, by decide⟩⟩
  · obtain ⟨w, run, checked⟩ := Run.of_check (step 1024) (fun _ e => decide (KeepsIds e)) .empty
      [.start ⟨7, 5, .GROUP, [], 100, 0⟩, .redisGet 0 .value, .select 0 true, .lookedUp 0,
        .groupMembers 0 [8, 7, 9], .idGenerate 0 {}, .idGenerate 0 {}, .idGenerate 0 {},
        .idReplied 0 50, .saveArrives 0, .insert 0 .executed, .insert 0 .executed,
        .insert 0 .executed, .setLastSend 0 true true, .saveReplied 0 0]
      (fun w => decide (w.attempts[0]?.map Attempt.idReply =
        some [⟨7, 1, 1⟩, ⟨8, 1, 1⟩, ⟨9, 1, 1⟩]))
      (fun w _ keeps => (of_decide_eq_true keeps).nonneg w) (by decide)
    obtain ⟨att, found, reply⟩ := Option.map_eq_some_iff.mp (of_decide_eq_true checked)
    exact ⟨w, att, run, found, reply,
      (id_replies_aligned.2 initial_empty (by simp [World.empty]) run found).1⟩

end Tinyim.Delivery
