import Tinyim.Delivery.Numbering

/-! What a reader knows about ids below one that it has seen. Nothing orders the saves
of different senders, so such an id may still be on its way, but only if idgen had handed
it out when the reader looked. -/
namespace Tinyim.Delivery
open IdGen Dbproxy Logic Transition

/-- idgen has given the id of the row to an attempt for its message. -/
def Allocated (w : World) (row : Row) : Prop :=
  ∃ att ∈ w.attempts, att.Carries row.sender row.clientTime ∧
    ∃ ids ∈ att.idReply, ids.userId = row.userId ∧ ids.startMsgId = row.msgId

/-- The state of a run, and how its ids compare with those handed out when the reader looked. -/
structure Since (read w : World) : Prop where
  consistent : Consistent (fun _ _ => True) w
  originates : Originates w
  numbered : Numbered w
  later : ∀ userId, lastId read.idgen userId ≤ lastId w.idgen userId
  ids : ∀ (a : Nat) att, w.attempts[a]? = some att → ∀ ids ∈ att.idReply,
    lastId read.idgen ids.userId < ids.startMsgId ∨
      ∃ before ∈ read.attempts, att.newMsg = before.newMsg ∧ ids ∈ before.idReply

variable {n : Int} {w w₀ w' read : World} {e : Event}

/-- When the reader looks, every id has been handed out already. -/
theorem Since.now (consistent : Consistent (fun _ _ => True) w) (originates : Originates w)
    (numbered : Numbered w) : Since w w where
  consistent := consistent
  originates := originates
  numbered := numbered
  later _ := le_refl _
  ids _ att found _ held := .inr ⟨att, List.mem_of_getElem? found, rfl, held⟩

theorem Since.step (since : Since read w) (keeps : KeepsIds e) (moved : Moves n w e w') :
    Since read w' where
  consistent := since.consistent.step (lists_any w e) moved
  originates := since.originates.step since.consistent moved
  numbered := since.numbered.step since.consistent
    (since.numbered.lastId_le since.consistent keeps moved) moved
  later userId :=
    (since.later userId).trans (since.numbered.lastId_le since.consistent keeps moved userId)
  ids a att found ids held := by
    obtain ⟨old, present, same, before⟩ | ⟨_, -, fresh, -⟩ :=
      since.numbered.id_before since.consistent moved found held
    · rw [same]
      exact since.ids a old present ids before
    · have bound := since.later ids.userId
      exact .inl (by omega)

theorem since_fresh (fresh : Fresh w₀) (run : Run (step n) (fun _ e => KeepsIds e) w₀ es w) :
    Since w w := by
  have since := run.invariant (Since w₀) (fun since keeps stepped =>
    since.step keeps (moves_of_step stepped))
    (.now (initial_consistent fresh.toInitial) (originates_fresh fresh) (numbered_fresh fresh))
  exact .now since.consistent since.originates since.numbered

theorem Since.stored_le (since : Since read w) (member : row ∈ w.messages) :
    row.msgId ≤ lastId w.idgen row.userId := by
  obtain ⟨j, job, att, -, -, owned, -, -, ids, held, rfl⟩ :=
    since.originates.save since.consistent member
  exact since.numbered.issued _ att owned ids held

/-- A row that turns up below an id which the reader has seen had its id allocated
when the reader looked, so a gap without such ids stays empty. -/
theorem late_row_allocated (fresh : Fresh w₀)
    (before : Run (step n) (fun _ e => KeepsIds e) w₀ es w)
    (shown : msg ∈ getMsgs w.messages r startMsgId endMsgId)
    (after : Run (step n) (fun _ e => KeepsIds e) w fs w')
    (late : row ∈ w'.messages) (missed : row ∉ w.messages) (user : row.userId = r)
    (below : row.msgId < msg.msgId) : Allocated w row := by
  obtain ⟨seen, kept, rfl⟩ := List.mem_map.mp shown
  obtain ⟨present, matched⟩ := List.mem_filter.mp kept
  have reader : seen.userId = r := (of_decide_eq_true matched).1
  have since := after.invariant (Since w)
    (fun since keeps stepped => since.step keeps (moves_of_step stepped)) (since_fresh fresh before)
  obtain ⟨j, job, att, -, -, owned, -, -, ids, held, rfl⟩ :=
    since.originates.save since.consistent late
  obtain fresh | ⟨earlier, member, same, held⟩ := since.ids _ att owned ids held
  · have bound := (since_fresh ‹Fresh w₀› before).stored_le present
    have user : ids.userId = r := user
    have below : ids.startMsgId < seen.msgId := below
    rw [reader] at bound
    rw [user] at fresh
    omega
  · refine ⟨earlier, member, ⟨?_, ?_⟩, ids, held, rfl, rfl⟩
    · exact congrArg NewMsg.userId same.symm
    · exact congrArg NewMsg.clientTime same.symm

def fromSeven : NewMsg := ⟨7, 8, .PRIVATE, "hi".toList, 100, 0⟩

def fromNine : NewMsg := ⟨9, 8, .PRIVATE, "ho".toList, 300, 0⟩

/-- The message of user 9 gets the later id and is saved first. -/
def laterIdSavedFirst : List Event :=
  [.start fromSeven, .start fromNine, .redisGet 0 .value, .redisGet 1 .value, .select 0 true,
    .select 1 true, .lookedUp 0, .lookedUp 1, .idGenerate 0 {}, .idGenerate 0 {},
    .idGenerate 1 {}, .idGenerate 1 {}, .idReplied 1 50, .saveArrives 1, .insert 0 .executed,
    .setLastSend 0 true true, .saveReplied 1 0]

def earlierIdSaved : List Event :=
  [.idReplied 0 51, .saveArrives 0, .insert 1 .executed, .setLastSend 1 true true,
    .saveReplied 0 1]

/-- The row that user 8 gets from user 7 after reading the one from user 9. -/
def lateRow : Row where
  userId := 8
  sender := 7
  receiver := 8
  msgId := 1
  groupId := 0
  message := "hi".toList
  clientTime := 100
  msgTime := 51

theorem late_row_allocated_seven :
    ∃ w w', Run (step 1024) (fun _ e => KeepsIds e) .empty laterIdSavedFirst w ∧
      Run (step 1024) (fun _ e => KeepsIds e) w earlierIdSaved w' ∧
      lateRow ∈ w'.messages ∧ lateRow ∉ w.messages ∧ Allocated w lateRow := by
  obtain ⟨w, w', before, checked, after, late⟩ := Run.of_checks (step 1024)
    (fun _ e => decide (KeepsIds e)) .empty laterIdSavedFirst earlierIdSaved
    (fun w => decide ((getMsgs w.messages 8 1 10).map (·.msgId) = [2] ∧ lateRow ∉ w.messages))
    (fun w' => decide (lateRow ∈ w'.messages)) (fun _ _ => of_decide_eq_true) (by decide)
  obtain ⟨shown, missed⟩ := of_decide_eq_true checked
  have two : 2 ∈ (getMsgs w.messages 8 1 10).map (·.msgId) := by simp [shown]
  obtain ⟨msg, member, id⟩ := List.mem_map.mp two
  refine ⟨w, w', before, after, of_decide_eq_true late, missed, ?_⟩
  exact late_row_allocated fresh_empty before member after (of_decide_eq_true late) missed rfl
    (by rw [id]; decide)

/-- Nothing fails, and yet id 1 of user 8 turns up after id 2 has been read. -/
theorem row_below_read_id_arrives :
    ∃ w w', Run (step 1024) (fun w e => Healthy e ∧ ClientContract w e ∧ ProperPeer e)
        .empty laterIdSavedFirst w ∧
      Run (step 1024) (fun w e => Healthy e ∧ ClientContract w e ∧ ProperPeer e)
        w earlierIdSaved w' ∧
      (getMsgs w.messages 8 1 10).map (·.msgId) = [2] ∧
      (getMsgs w'.messages 8 1 10).map (·.msgId) = [2, 1] := by
  obtain ⟨w, w', before, first, after, second⟩ := Run.of_checks (step 1024)
    (fun w e => decide (Healthy e ∧ ClientContract w e ∧ ProperPeer e)) .empty
    laterIdSavedFirst earlierIdSaved
    (fun w => decide ((getMsgs w.messages 8 1 10).map (·.msgId) = [2]))
    (fun w' => decide ((getMsgs w'.messages 8 1 10).map (·.msgId) = [2, 1]))
    (fun _ _ => of_decide_eq_true) (by decide)
  exact ⟨w, w', before, after, of_decide_eq_true first, of_decide_eq_true second⟩

end Tinyim.Delivery
