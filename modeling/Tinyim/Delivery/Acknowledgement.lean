import Tinyim.Delivery.Contract

/-! A success reply says that every participant has its row, unless the retry path
looks at the sender's own row while the group save behind it is unfinished. -/
namespace Tinyim.Delivery
open IdGen Dbproxy Logic Transition

def Delivered (membership : Int → List Int) (messages : List Row) (m : NewMsg) : Prop :=
  ∀ p ∈ participants membership m, ∃ row ∈ messages, row.key = (p, m.userId, m.clientTime)

/-- Some statements of the save have been executed and some have not, because it is
still running or has failed on the way. -/
def SaveJob.Partial (job : SaveJob) : Prop := job.Started ∧ job.todo ≠ []

/-- `GetUserLastSendData` queries the table while a save of the same message is partial. -/
def ReadsPartialSave (w : World) : Event → Prop
  | .select a true => ∃ att ∈ w.attempts[a]?, ∃ job ∈ w.saves, job.Partial ∧
      job.request.sender = att.newMsg.userId ∧ job.request.clientTime = att.newMsg.clientTime
  | _ => False

/-- The clients keep their contract and the groups their members; anything may fail. -/
def Abides (membership : Int → List Int) (w : World) (e : Event) : Prop :=
  ClientContract w e ∧ ProperPeer e ∧ Lists (Fixed membership) w e

instance : Decidable (Delivered membership messages m) := by unfold Delivered; infer_instance

instance (job : SaveJob) : Decidable job.Partial := by
  unfold SaveJob.Partial SaveJob.Started; infer_instance

instance : Decidable (ReadsPartialSave w e) := by
  unfold ReadsPartialSave; split <;> infer_instance

instance : Decidable (Abides membership w e) := by unfold Abides; infer_instance

variable {membership : Int → List Int} {n : Int} {w w₀ w' : World} {e : Event} {a j : Nat}
  {att next : Attempt} {job : SaveJob}

theorem Delivered.grow (delivered : Delivered membership w.messages m)
    (moved : Moves n w e w') : Delivered membership w'.messages m := by
  intro p member
  obtain ⟨row, present, key⟩ := delivered p member
  exact ⟨row, messages_kept moved present, key⟩

theorem Consistent.complete_delivered (consistent : Consistent (Fixed membership) w)
    (found : w.saves[j]? = some job) (complete : job.todo = [])
    (owned : w.attempts[job.attempt]? = some att) : Delivered membership w.messages att.newMsg := by
  obtain ⟨owner, present, -, built⟩ := consistent.built found
  cases owned.symm.trans present
  intro p member
  rw [← built.participants] at member
  obtain ⟨ids, served, rfl⟩ := List.mem_map.mp member
  have stated : participantRow att.newMsg job.request.msgTime ids ∈
      job.request.statements.flatten := by
    rw [built.rows]
    exact List.mem_map_of_mem served
  obtain ⟨rows, statement, inside⟩ := List.mem_flatten.mp stated
  exact ⟨_, consistent.complete_rows found complete rows statement _ inside, rfl⟩

/-- What holds along a run that never reads a partial save. -/
structure Settled (membership : Int → List Int) (w : World) : Prop where
  consistent : Consistent (Fixed membership) w
  identified : Identified w
  originates : Originates w
  lookup : ∀ (a : Nat) att data, w.attempts[a]? = some att → att.lookup = .answered data →
    data.clientTime = att.newMsg.clientTime → Delivered membership w.messages att.newMsg
  duplicate : ∀ (a : Nat) att reply, w.attempts[a]? = some att →
    att.stage = .finished (.duplicate reply) → Delivered membership w.messages att.newMsg

theorem settled_initial (initial : Initial w) (empty : w.messages = []) :
    Settled membership w where
  consistent := initial_consistent initial
  identified := .initial initial
  originates := originates_of_empty empty
  lookup a att data found := by simp [initial.attempts] at found
  duplicate a att reply found := by simp [initial.attempts] at found

namespace Settled

/-- The own row that the query finds belongs to a save that is complete. -/
theorem own_row_delivered {row : Row} (settled : Settled membership w)
    (found : w.attempts[a]? = some att) (whole : ¬ ReadsPartialSave w (.select a true))
    (stored : row ∈ w.messages) (sender : row.sender = att.newMsg.userId)
    (time : row.clientTime = att.newMsg.clientTime) :
    Delivered membership w.messages att.newMsg := by
  obtain ⟨j, job, owner, present, started, owned, -, built, ids, -, rfl⟩ :=
    settled.originates.save settled.consistent stored
  have same : owner.newMsg = att.newMsg :=
    settled.identified.same owner (List.mem_of_getElem? owned) att (List.mem_of_getElem? found)
      sender time
  have complete : job.todo = [] := by
    by_contra unfinished
    refine whole ⟨att, found, job, List.mem_of_getElem? present, ⟨started, unfinished⟩, ?_, ?_⟩
    · rw [built.sender, same]
    · rw [built.clientTime, same]
  rw [← same]
  exact settled.consistent.complete_delivered present complete owned

theorem lookup_step (settled : Settled membership w) (whole : ¬ ReadsPartialSave w e)
    (found : w.attempts[a]? = some att) (evolved : Evolves n w w' a att e next)
    (answered : next.lookup = .answered data)
    (same : data.clientTime = att.newMsg.clientTime) :
    Delivered membership w.messages att.newMsg := by
  have timed := settled.identified.timed att (List.mem_of_getElem? found)
  cases evolved with
  | kept | identified | idRefused => exact settled.lookup a att data found answered same
  | advanced adv =>
      cases adv with
      | redisHit stage lookup present =>
          -- The record reads as zeros, which is nobody's client time.
          obtain ⟨d, rfl⟩ := settled.consistent.written _ _ present
          cases answered
          rw [scanLastSend_recordText] at same
          rw [← same] at timed
          exact absurd timed (lt_irrefl _)
      | redisMiss => cases answered
      | selected =>
          cases answered
          obtain ⟨-, nothing⟩ | ⟨row, owned, -, newest⟩ :=
            selectLastSend_cases w.messages att.newMsg.userId
          · rw [nothing] at same
            rw [← same] at timed
            exact absurd timed (lt_irrefl _)
          · rw [newest] at same
            obtain ⟨present, -, sender⟩ := mem_ownRows.mp owned
            exact settled.own_row_delivered found whole present sender same
      | lookedUp | groupMembers | idReplied | saveReplied | failed =>
          exact settled.lookup a att data found answered same

theorem step (settled : Settled membership w) (abides : Abides membership w e)
    (whole : ¬ ReadsPartialSave w e) (moved : Moves n w e w') : Settled membership w' where
  consistent := settled.consistent.step abides.2.2 moved
  identified := settled.identified.step abides.1 moved
  originates := settled.originates.step settled.consistent moved
  lookup a att data found answered same := by
    obtain ⟨m, -, rfl, -⟩ | ⟨old, present, evolved⟩ := attempt_before moved found
    · cases answered
    · rw [evolved.newMsg] at same ⊢
      exact (settled.lookup_step whole present evolved answered same).grow moved
  duplicate a att reply found finished := by
    obtain ⟨m, -, rfl, -⟩ | ⟨old, present, evolved⟩ := attempt_before moved found
    · cases finished
    · rw [evolved.newMsg]
      obtain before | ⟨data, -, answered, same, -⟩ := duplicate_evolves evolved finished
      · exact (settled.duplicate a old reply present before).grow moved
      · exact (settled.lookup a old data present answered same).grow moved

theorem reply_delivered (settled : Settled membership w) (replied : Replied w a m reply) :
    Delivered membership w.messages m := by
  obtain ⟨att, found, rfl, replied⟩ := replied
  obtain finished | ⟨args, finished⟩ := reply_cases replied
  · exact settled.duplicate a att reply found finished
  · obtain ⟨j, job, present, rfl, status⟩ :=
      settled.consistent.accepted a att reply args found finished
    exact settled.consistent.complete_delivered present
      (settled.consistent.saved j job present status) found

end Settled

/-- As long as no retry reads a partial save, a success reply means that every
participant has its row. -/
theorem acknowledged_delivered (initial : Initial w₀) (empty : w₀.messages = [])
    (run : Run (step n) (fun w e => Abides membership w e ∧ ¬ ReadsPartialSave w e) w₀ es w)
    (replied : Replied w a m reply) : Delivered membership w.messages m :=
  (run.invariant (Settled membership) (fun settled admitted stepped =>
    settled.step admitted.1 admitted.2 (moves_of_step stepped))
    (settled_initial initial empty)).reply_delivered replied

/-- A group message of user 7 to the group of 7, 8 and 9. -/
def toGroup : NewMsg := ⟨7, 5, .GROUP, "hi".toList, 100, 0⟩

/-- The first attempt up to the point where its save is in progress. -/
def groupSaveInProgress : List Event :=
  [.start toGroup, .redisGet 0 .value, .select 0 true, .lookedUp 0, .groupMembers 0 [7, 8, 9],
    .idGenerate 0 {}, .idGenerate 0 {}, .idGenerate 0 {}, .idReplied 0 50, .saveArrives 0]

/-- The save stops behind the sender's row and is resumed by nobody; the retry asks a
Redis without a record. -/
def retryAfterPartialSave : List Event :=
  groupSaveInProgress ++ [.insert 0 .executed, .insert 0 .refused, .saveReplied 0 0,
    .start toGroup, .redisGet 1 .value, .select 1 true, .lookedUp 1]

/-- The whole save is done before the retry looks. -/
def retryAfterWholeSave : List Event :=
  groupSaveInProgress ++ [.insert 0 .executed, .insert 0 .executed, .insert 0 .executed,
    .rpcFails 0 ⟨1008, []⟩, .start toGroup, .redisGet 1 .value, .select 1 true, .lookedUp 1]

theorem acknowledged_delivered_retry :
    ∃ w, Run (step 1024) (fun w e => Abides (fun _ => [7, 8, 9]) w e ∧ ¬ ReadsPartialSave w e)
        .empty retryAfterWholeSave w ∧
      Replied w 1 toGroup ⟨1, 0, 50⟩ ∧ Delivered (fun _ => [7, 8, 9]) w.messages toGroup := by
  obtain ⟨w, run, replied⟩ := Run.of_check (step 1024)
    (fun w e => decide (Abides (fun _ => [7, 8, 9]) w e ∧ ¬ ReadsPartialSave w e)) .empty
    retryAfterWholeSave (fun w => decide (Replied w 1 toGroup ⟨1, 0, 50⟩))
    (fun _ _ => of_decide_eq_true) (by decide)
  exact ⟨w, run, of_decide_eq_true replied,
    acknowledged_delivered initial_empty rfl run (of_decide_eq_true replied)⟩

/-- The retry is answered from the sender's row while the members 8 and 9 have none. -/
theorem partial_group_save_acknowledged :
    ∃ w, Run (step 1024) (Abides fun _ => [7, 8, 9]) .empty retryAfterPartialSave w ∧
      Replied w 1 toGroup ⟨1, 0, 50⟩ ∧ ¬ Delivered (fun _ => [7, 8, 9]) w.messages toGroup := by
  obtain ⟨w, run, checked⟩ := Run.of_check (step 1024)
    (fun w e => decide (Abides (fun _ => [7, 8, 9]) w e)) .empty retryAfterPartialSave
    (fun w => decide (Replied w 1 toGroup ⟨1, 0, 50⟩ ∧
      ¬ Delivered (fun _ => [7, 8, 9]) w.messages toGroup))
    (fun _ _ => of_decide_eq_true) (by decide)
  exact ⟨w, run, of_decide_eq_true checked⟩

end Tinyim.Delivery
