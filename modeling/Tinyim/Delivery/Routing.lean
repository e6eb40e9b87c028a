import Tinyim.Logic.PushRouting
import Tinyim.Delivery.Contract
import Tinyim.Delivery.PushedCopies

/-! Where the pushed copies of an accepted message go. The key of the messages table lets no
user take part twice, so each online recipient gets one call, on the channel of its address. -/
namespace Tinyim.Delivery
open Dbproxy Logic Transition

/-- The rows that a save has stored belong to different users. -/
def Separate (w : World) : Prop :=
  ∀ (j : Nat) job, w.saves[j]? = some job →
    ∃ done, job.request.statements = done ++ job.todo ∧ (done.flatten.map Row.key).Nodup ∧
      ∀ row ∈ done.flatten, row ∈ w.messages

structure Delivering (listed : Int → List Int → Prop) (w : World) : Prop where
  hands : HandsOver listed w
  separate : Separate w

def RecipientsOf (listed : Int → List Int → Prop) (m : NewMsg) (userIds : List Int) : Prop :=
  match m.msgType with
  | .PRIVATE => userIds = [m.peerId]
  | .GROUP => ∃ members, listed m.peerId members ∧ userIds = members.filter (· ≠ m.userId)

/-- The calls of a task that asked for the sessions of `userIds`, which say `value`. -/
structure Routed (w : World) (m : NewMsg) (value : Int → Option Text) (userIds : List Int)
    (calls : List SendtoAccessCall) : Prop where
  addressed : ∀ call ∈ calls, call.msg.userId ∈ userIds ∧ call.msg.userId ≠ m.userId ∧
    ∃ addr, value call.msg.userId = some addr ∧ call.channel = ⟨cStr addr⟩
  stored : ∀ call ∈ calls, ∃ row ∈ w.messages,
    row.key = (call.msg.userId, m.userId, m.clientTime) ∧ row.msgId = call.msg.msgId ∧
      ∀ other ∈ w.messages, other.key = row.key → other = row
  once : ∀ u ∈ userIds, (calls.filter (·.msg.userId = u)).length = if (value u).isSome then 1 else 0

variable {listed : Int → List Int → Prop} {n : Int} {w w₀ w' : World} {e : Event} {a : Nat}
  {att : Attempt} {args : SendtoPeersArgs}

theorem Separate.step (separate : Separate w) (keys : KeyUnique w.messages)
    (moved : Moves n w e w') : Separate w' := by
  intro j later found
  obtain ⟨_, _, _, request, -, -, -, rfl, -⟩ | ⟨job, present, proceeded⟩ := save_before moved found
  · exact ⟨[], rfl, List.nodup_nil, nofun⟩
  · obtain ⟨done, split, nodup, rowsStored⟩ := separate j job present
    have kept : ∀ row ∈ done.flatten, row ∈ w'.messages :=
      fun row member => messages_kept moved (rowsStored row member)
    cases proceeded with
    | kept | stopped | recorded => exact ⟨done, split, nodup, kept⟩
    | inserted running next stored unsaved =>
        rename_i rows todo status
        obtain ⟨grown, unique, fresh⟩ := insertStatement_eq_some stored
        have unique := unique keys
        rw [KeyUnique, grown, List.map_append] at unique
        refine ⟨done ++ [rows], by simp [split, next], ?_, ?_⟩
        · rw [List.flatten_append, List.flatten_singleton, List.map_append]
          refine List.nodup_append.mpr ⟨nodup, (List.nodup_append.mp unique).2.1, ?_⟩
          intro key old other new same
          obtain ⟨row, member, rfl⟩ := List.mem_map.mp old
          obtain ⟨row', member', rfl⟩ := List.mem_map.mp new
          exact fresh row' member' (same ▸ List.mem_map_of_mem (rowsStored row member))
        · intro row member
          rw [List.flatten_append, List.mem_append, List.flatten_singleton] at member
          obtain member | member := member
          · exact kept row member
          · rw [grown]
            exact List.mem_append_right _ member

namespace Delivering

theorem initial (initial : Initial w) : Delivering listed w where
  hands := .initial initial
  separate j job found := by simp [initial.saves] at found

theorem step (delivering : Delivering listed w) (lists : Lists listed w e)
    (moved : Moves n w e w') : Delivering listed w' where
  hands := delivering.hands.step lists moved
  separate := delivering.separate.step delivering.hands.consistent.keys moved

theorem users_nodup (delivering : Delivering listed w) (found : w.attempts[a]? = some att)
    (finished : att.stage = .finished (.accepted reply args)) :
    (att.idReply.map MsgIds.userId).Nodup := by
  have consistent := delivering.hands.consistent
  obtain ⟨j, job, present, rfl, saved⟩ := consistent.accepted a att reply args found finished
  obtain ⟨owner, owned, -, built⟩ := consistent.built present
  cases found.symm.trans owned
  obtain ⟨done, split, nodup, -⟩ := delivering.separate j job present
  rw [consistent.saved j job present saved, List.append_nil] at split
  rw [← split, built.rows, List.map_map] at nodup
  refine List.Nodup.of_map (fun u => (u, att.newMsg.userId, att.newMsg.clientTime)) ?_
  rw [List.map_map]
  exact nodup

theorem recipientsOf (delivering : Delivering listed w) (found : w.attempts[a]? = some att)
    (finished : att.stage = .finished (.accepted reply args)) :
    RecipientsOf listed att.newMsg (recipients args) := by
  obtain ⟨request, built, answers, -, -⟩ := delivering.hands.accepted found finished
  obtain ⟨idRequest, asked, users⟩ := built.answers
  have same : recipients args = (idRequest.map UserAndIdNum.userId).drop 1 := by
    rw [recipients, List.map_drop, ← answers, users]
  rw [same]
  cases kind : att.newMsg.msgType with
  | PRIVATE =>
      simp only [RequestOf, kind] at asked
      simp only [RecipientsOf, kind]
      rw [asked]
      rfl
  | GROUP =>
      simp only [RequestOf, kind] at asked
      simp only [RecipientsOf, kind]
      obtain ⟨members, member, rfl⟩ := asked
      refine ⟨members, member, ?_⟩
      simp only [groupIdRequest, List.map_cons, List.map_map, List.drop_succ_cons, List.drop_zero]
      exact List.map_id _

end Delivering

def callsOf (args : SendtoPeersArgs) (value : Int → Option Text) (reply : List MsgIds) :
    List SendtoAccessCall :=
  reply.filterMap fun ids => (value ids.userId).map fun addr =>
    ⟨⟨cStr addr⟩, pushedMsg args ids.userId ids⟩

theorem mem_callsOf (member : call ∈ callsOf args value reply) :
    ∃ ids ∈ reply, ∃ addr, value ids.userId = some addr ∧
      call = ⟨⟨cStr addr⟩, pushedMsg args ids.userId ids⟩ := by
  obtain ⟨ids, held, made⟩ := List.mem_filterMap.mp member
  obtain ⟨addr, online, rfl⟩ := Option.map_eq_some_iff.mp made
  exact ⟨ids, held, addr, online, rfl⟩

theorem callsOf_absent (absent : u ∉ reply.map MsgIds.userId) :
    (callsOf args value reply).filter (·.msg.userId = u) = [] := by
  rw [List.filter_eq_nil_iff]
  intro call member
  obtain ⟨ids, held, addr, -, rfl⟩ := mem_callsOf member
  intro same
  obtain rfl : ids.userId = u := of_decide_eq_true same
  exact absent (List.mem_map_of_mem held)

theorem callsOf_once (nodup : (reply.map MsgIds.userId).Nodup)
    (asked : u ∈ reply.map MsgIds.userId) :
    ((callsOf args value reply).filter (·.msg.userId = u)).length =
      if (value u).isSome then 1 else 0 := by
  induction reply with
  | nil => cases asked
  | cons ids reply ih =>
      obtain ⟨fresh, nodup⟩ := List.nodup_cons.mp nodup
      by_cases here : ids.userId = u
      · have later : (callsOf args value reply).filter (·.msg.userId = u) = [] :=
          callsOf_absent (here ▸ fresh)
        subst here
        cases online : value ids.userId with
        | none =>
            simp only [callsOf, List.filterMap_cons, online, Option.map_none] at later ⊢
            rw [later]
            rfl
        | some addr =>
            simp only [callsOf, List.filterMap_cons, online, Option.map_some, List.filter_cons,
              pushedMsg, decide_true, if_true] at later ⊢
            rw [later]
            rfl
      · have rest : u ∈ reply.map MsgIds.userId :=
          (List.mem_cons.mp asked).resolve_left (Ne.symm here)
        rw [← ih nodup rest]
        cases online : value ids.userId with
        | none => simp only [callsOf, List.filterMap_cons, online, Option.map_none]
        | some addr =>
            simp only [callsOf, List.filterMap_cons, online, Option.map_some, List.filter_cons,
              pushedMsg, here, decide_false, Bool.false_eq_true, if_false]

/-- For every accepted message, whatever channels earlier tasks have left in the map and
whoever is online, the task issues exactly one call for each online recipient, on the
channel of its own address and with the id of its own row, and no other call. -/
theorem pushes_routed (initial : Initial w₀) (run : Run (step n) (Lists listed) w₀ es w)
    (found : w.attempts[a]? = some att) (finished : att.stage = .finished (.accepted reply args))
    (value : Int → Option Text) (earlier : List (List Session))
    (answered : sessions = .ok (getSessions value (recipients args)) ∨
      recipients args = [] ∧ ∃ error, sessions = .error error) :
    RecipientsOf listed att.newMsg (recipients args) ∧
      ∃ extended calls,
        sendtoPeersTask (accessMapAfter earlier) args sessions = some (extended, calls) ∧
        Routed w att.newMsg value (recipients args) calls := by
  have delivering : Delivering listed w := run.invariant (Delivering listed)
    (fun before lists stepped => before.step lists (moves_of_step stepped)) (.initial initial)
  refine ⟨delivering.recipientsOf found finished, ?_⟩
  obtain rfl | ⟨nobody, error, rfl⟩ := answered
  · obtain ⟨request, built, answers, handed, stored⟩ := delivering.hands.accepted found finished
    have sameReply : args.idReply = att.idReply := congrArg SendtoPeersArgs.idReply handed
    have users : recipients args = (att.idReply.drop 1).map MsgIds.userId := by
      rw [recipients, List.map_drop, List.map_drop, answers]
    have nodup := delivering.users_nodup found finished
    obtain ⟨own, others, reply, ownUser, -⟩ := built.first_row
    obtain ⟨extended, calls, issued, -, made, -⟩ := sendtoPeersTask_eq
      (accessMapAfter_initialised earlier) value (sameReply ▸ answers)
    have made : calls = callsOf args value (att.idReply.drop 1) := by rw [made, sameReply]; rfl
    refine ⟨extended, calls, issued, ?_, ?_, ?_⟩
    · intro call member
      obtain ⟨ids, held, addr, online, rfl⟩ := mem_callsOf (made ▸ member)
      refine ⟨users ▸ List.mem_map_of_mem held, ?_, addr, online, rfl⟩
      rw [reply, List.map_cons, List.nodup_cons, ownUser] at nodup
      rw [reply, List.drop_succ_cons, List.drop_zero] at held
      intro same
      exact nodup.1 (same ▸ List.mem_map_of_mem held)
    · intro call member
      obtain ⟨ids, held, addr, online, rfl⟩ := mem_callsOf (made ▸ member)
      have row := stored ids (List.mem_of_mem_drop held)
      exact ⟨_, row, rfl, rfl, fun other present key =>
        delivering.hands.consistent.keys.eq present row key⟩
    · intro u asked
      rw [made]
      rw [users] at asked
      refine callsOf_once ?_ asked
      rw [List.map_drop]
      exact nodup.sublist (List.drop_sublist 1 _)
  · refine ⟨_, _, rfl, ?_, ?_, ?_⟩
    · exact fun _ member => absurd member List.not_mem_nil
    · exact fun _ member => absurd member List.not_mem_nil
    · rw [nobody]
      exact fun _ member => absurd member List.not_mem_nil

/-- User 7 sends to a group of which 8 and 10 are online at one address and 9 is offline. -/
theorem pushes_routed_group :
    ∃ w att args calls, Run (step 1024) (Lists (Fixed fun _ => [8, 7, 9, 10])) .empty
        [.start ⟨7, 5, .GROUP, [], 100, 0⟩, .redisGet 0 .value, .select 0 true, .lookedUp 0,
          .groupMembers 0 [8, 7, 9, 10], .idGenerate 0 {}, .idGenerate 0 {}, .idGenerate 0 {},
          .idGenerate 0 {}, .idReplied 0 50, .saveArrives 0, .insert 0 .executed,
          .insert 0 .executed, .insert 0 .executed, .insert 0 .executed,
          .setLastSend 0 true true, .saveReplied 0 0] w ∧
      w.attempts[0]? = some att ∧ att.stage = .finished (.accepted ⟨1, 1, 50⟩ args) ∧
      calls.map (fun call => (call.channel.addr, call.msg.userId)) =
        [("a:1".toList, 8), ("a:1".toList, 10)] ∧
      Routed w att.newMsg (fun u => if u = 9 then none else some "a:1".toList) [8, 9, 10]
        calls := by
  obtain ⟨w, run, checked⟩ : ∃ w, Run (step 1024)
      (Lists (Fixed fun _ => [8, 7, 9, 10])) .empty _ w ∧ _ :=
    Run.of_check (step 1024) (fun w e => decide (Lists (Fixed fun _ => [8, 7, 9, 10]) w e)) .empty
      [.start ⟨7, 5, .GROUP, [], 100, 0⟩, .redisGet 0 .value, .select 0 true, .lookedUp 0,
        .groupMembers 0 [8, 7, 9, 10], .idGenerate 0 {}, .idGenerate 0 {}, .idGenerate 0 {},
        .idGenerate 0 {}, .idReplied 0 50, .saveArrives 0, .insert 0 .executed,
        .insert 0 .executed, .insert 0 .executed, .insert 0 .executed,
        .setLastSend 0 true true, .saveReplied 0 0]
      (fun w => decide (w.attempts[0]?.map Attempt.stage = some (.finished (.accepted ⟨1, 1, 50⟩
        { idRequest := [⟨7, 1⟩, ⟨8, 1⟩, ⟨9, 1⟩, ⟨10, 1⟩],
          idReply := [⟨7, 1, 1⟩, ⟨8, 1, 1⟩, ⟨9, 1, 1⟩, ⟨10, 1, 1⟩],
          newMsg := ⟨7, 5, .GROUP, [], 100, 50⟩, sender := 7 }))))
      (fun _ _ => of_decide_eq_true) (by decide)
  obtain ⟨att, found, finished⟩ := Option.map_eq_some_iff.mp (of_decide_eq_true checked)
  obtain ⟨-, _, calls, issued, routed⟩ := pushes_routed initial_empty run found finished
    (fun u => if u = 9 then none else some "a:1".toList) [] (.inl rfl)
  refine ⟨w, att, _, calls, run, found, finished, ?_, routed⟩
  cases issued
  rfl

end Tinyim.Delivery
