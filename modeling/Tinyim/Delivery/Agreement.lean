import Tinyim.Delivery.Invariants

/-! At most one attempt of a message is accepted and all success replies agree. The
unique key makes the sender's own row the single point of decision. -/
namespace Tinyim.Delivery
open IdGen Dbproxy Logic Transition

def Attempt.Carries (att : Attempt) (sender clientTime : Int) : Prop :=
  att.newMsg.userId = sender ∧ att.newMsg.clientTime = clientTime

structure Agreed (w : World) (sender clientTime : Int) : Prop where
  saves : ∀ (i j : Nat) left right, w.saves[i]? = some left → w.saves[j]? = some right →
    left.status = .saved → right.status = .saved →
    left.request.sender = sender → right.request.sender = sender →
    left.request.clientTime = clientTime → right.request.clientTime = clientTime → i = j
  pushes : ∀ (a b : Nat) left right reply reply' args args',
    w.attempts[a]? = some left → w.attempts[b]? = some right →
    left.Carries sender clientTime → right.Carries sender clientTime →
    left.stage = .finished (.accepted reply args) →
    right.stage = .finished (.accepted reply' args') → a = b
  quotes : ∀ (a : Nat) att reply, w.attempts[a]? = some att → att.Carries sender clientTime →
    att.stage.reply? = some reply →
      Quotes w.messages sender clientTime reply.msgId reply.msgTime
  replies : ∀ (a b : Nat) left right reply reply',
    w.attempts[a]? = some left → w.attempts[b]? = some right →
    left.Carries sender clientTime → right.Carries sender clientTime →
    left.stage.reply? = some reply → right.stage.reply? = some reply' →
      reply.msgId = reply'.msgId ∧ reply.msgTime = reply'.msgTime

variable {listed : Int → List Int → Prop} {n : Int} {w w' : World} {a : Nat} {att : Attempt}

theorem reply_cases (replied : att.stage.reply? = some reply) :
    att.stage = .finished (.duplicate reply) ∨
      ∃ args, att.stage = .finished (.accepted reply args) := by
  cases stage : att.stage with
  | finished outcome =>
      cases outcome with
      | duplicate other =>
          rw [stage] at replied
          cases replied
          exact .inl rfl
      | accepted other args =>
          rw [stage] at replied
          cases replied
          exact .inr ⟨args, rfl⟩
      | failed error => rw [stage] at replied; cases replied
      | aborted => rw [stage] at replied; cases replied
  | getUserLastSendData | getGroupMembers | idGenerate | save =>
      rw [stage] at replied
      cases replied

theorem outcome_evolves (evolved : Evolves n w w' a att e next)
    (finished : att.stage = .finished outcome) : next.stage = .finished outcome := by
  cases evolved with
  | kept | identified => exact finished
  | idRefused user =>
      obtain ⟨_, stage, -⟩ := nextUser_eq_some user
      cases stage.symm.trans finished
  | advanced adv =>
      cases adv with
      | redisHit | redisMiss | selected => exact finished
      | lookedUp stage | groupMembers stage | idReplied stage | saveReplied stage =>
          cases stage.symm.trans finished
      | failed _ open_ => exact absurd finished (open_ outcome)

namespace Consistent

theorem accepted_save (consistent : Consistent listed w) (found : w.attempts[a]? = some att)
    (finished : att.stage = .finished (.accepted reply args)) :
    ∃ (j : Nat) (job : SaveJob), w.saves[j]? = some job ∧ job.attempt = a ∧ job.status = .saved ∧
      job.Started ∧ job.request.sender = att.newMsg.userId ∧
      job.request.clientTime = att.newMsg.clientTime ∧ reply = acceptedReply job.request := by
  obtain ⟨j, job, present, rfl, status⟩ := consistent.accepted a att reply args found finished
  obtain ⟨owner, owned, requested, built⟩ := consistent.built present
  cases found.symm.trans owned
  have shape := consistent.shape _ att found
  simp only [Attempt.Shape, finished] at shape
  obtain ⟨request, same, rfl⟩ := shape.2 reply args rfl
  cases requested.symm.trans same
  have complete := consistent.saved j job present status
  exact ⟨j, job, present, rfl, status, consistent.complete_started present complete,
    built.sender, built.clientTime, rfl⟩

theorem reply_quotes (consistent : Consistent listed w) (found : w.attempts[a]? = some att)
    (timed : att.newMsg.clientTime ≠ 0) (replied : att.stage.reply? = some reply) :
    Quotes w.messages att.newMsg.userId att.newMsg.clientTime reply.msgId reply.msgTime := by
  obtain finished | ⟨args, finished⟩ := reply_cases replied
  · exact consistent.duplicate a att reply found finished timed
  · obtain ⟨j, job, present, -, -, started, sender, time, rfl⟩ :=
      consistent.accepted_save found finished
    rw [← sender, ← time]
    exact consistent.started_quotes present started

theorem agreed (consistent : Consistent listed w) (positive : 0 < clientTime) :
    Agreed w sender clientTime where
  saves i j left right leftFound rightFound leftSaved rightSaved ls rs lt rt := by
    have leftStarted := consistent.complete_started leftFound
      (consistent.saved i left leftFound leftSaved)
    have rightStarted := consistent.complete_started rightFound
      (consistent.saved j right rightFound rightSaved)
    exact consistent.single i j left right leftFound rightFound leftStarted rightStarted
      (ls.trans rs.symm) (lt.trans rt.symm)
  pushes a b left right reply reply' args args' leftFound rightFound lc rc lf rf := by
    obtain ⟨i, first, leftJob, rfl, -, leftStarted, ls, lt, -⟩ :=
      consistent.accepted_save leftFound lf
    obtain ⟨j, second, rightJob, rfl, -, rightStarted, rs, rt, -⟩ :=
      consistent.accepted_save rightFound rf
    have same := consistent.single i j first second leftJob rightJob leftStarted rightStarted
      (by rw [ls, rs, lc.1, rc.1]) (by rw [lt, rt, lc.2, rc.2])
    subst same
    cases leftJob.symm.trans rightJob
    rfl
  quotes a att reply found carries replied := by
    obtain ⟨rfl, rfl⟩ := carries
    exact consistent.reply_quotes found (by omega) replied
  replies a b left right reply reply' leftFound rightFound lc rc lr rr := by
    have first := consistent.reply_quotes leftFound (by rw [lc.2]; omega) lr
    have second := consistent.reply_quotes rightFound (by rw [rc.2]; omega) rr
    rw [lc.1, lc.2] at first
    rw [rc.1, rc.2] at second
    obtain ⟨row, present, key, id, time⟩ := first
    obtain ⟨row', present', key', id', time'⟩ := second
    obtain rfl := consistent.keys.eq present present' (key.trans key'.symm)
    exact ⟨id.symm.trans id', time.symm.trans time'⟩

end Consistent

/-- Nothing that has been decided is ever taken back. -/
structure Recalls (w w' : World) : Prop where
  outcomes : ∀ (a : Nat) att outcome, w.attempts[a]? = some att → att.stage = .finished outcome →
    ∃ att', w'.attempts[a]? = some att' ∧ att'.newMsg = att.newMsg ∧
      att'.stage = .finished outcome
  saves : ∀ (j : Nat) job, w.saves[j]? = some job → job.status ≠ .running →
    w'.saves[j]? = some job
  rows : ∀ row ∈ w.messages, row ∈ w'.messages

theorem Recalls.refl (w : World) : Recalls w w where
  outcomes _ att _ found finished := ⟨att, found, rfl, finished⟩
  saves _ _ found _ := found
  rows _ present := present

theorem Recalls.trans (first : Recalls w w') (second : Recalls w' w'') : Recalls w w'' where
  outcomes a att outcome found finished := by
    obtain ⟨att', found', same, finished'⟩ := first.outcomes a att outcome found finished
    obtain ⟨att'', found'', same', finished''⟩ := second.outcomes a att' outcome found' finished'
    exact ⟨att'', found'', same'.trans same, finished''⟩
  saves j job found returned := second.saves j job (first.saves j job found returned) returned
  rows row present := second.rows row (first.rows row present)

theorem Moves.recalls (moved : Moves n w e w') : Recalls w w' where
  outcomes a att outcome found finished := by
    obtain ⟨next, after, evolved⟩ := attempt_after moved found
    exact ⟨next, after, evolved.newMsg, outcome_evolves evolved finished⟩
  saves j job found returned := by
    obtain ⟨later, after, proceeded⟩ := save_after moved found
    rw [proceeded.returned returned] at after
    exact after
  rows _ present := messages_kept moved present

theorem run_recalls {allowed : World → Event → Prop} (run : Run (step n) allowed w es w') :
    Recalls w w' := by
  induction run with
  | refl w => exact .refl w
  | next _ stepped _ ih => exact (moves_of_step stepped).recalls.trans ih

/-- In every run, whatever interleaves and fails, a message is accepted at most once
and its replies agree. A reply given on the way is still the one given at the end. -/
theorem replies_agree (initial : Initial w₀) (positive : 0 < clientTime)
    (run : Run (step n) (fun _ _ => True) w₀ es w)
    (rest : Run (step n) (fun _ _ => True) w fs w') :
    Agreed w' sender clientTime ∧ Recalls w w' := by
  refine ⟨?_, run_recalls rest⟩
  have consistent := consistent_of_run initial (run.trans rest)
  exact consistent.agreed positive

/-- Two attempts pass the duplicate check together; the save that arrives first wins,
and a later retry is answered from its row. -/
def racingAttempts : List Event :=
  let m : NewMsg := ⟨7, 8, .PRIVATE, "hi".toList, 100, 0⟩
  [.start m, .start m, .redisGet 0 .value, .redisGet 1 .value, .select 0 true, .select 1 true,
    .lookedUp 0, .lookedUp 1, .idGenerate 0 {}, .idGenerate 0 {}, .idGenerate 1 {},
    .idGenerate 1 {}, .idReplied 0 50, .idReplied 1 51, .saveArrives 0, .saveArrives 1,
    .insert 1 .executed, .insert 0 .executed, .setLastSend 1 true true, .saveReplied 0 0,
    .saveReplied 1 1]

def retryAfterExpiry : List Event :=
  [.redisExpires 7, .start ⟨7, 8, .PRIVATE, "hi".toList, 100, 0⟩, .redisGet 2 .value,
    .select 2 true, .lookedUp 2]

theorem replies_agree_racing :
    ∃ w w', Run (step 1024) (fun _ _ => True) .empty racingAttempts w ∧
      Run (step 1024) (fun _ _ => True) w retryAfterExpiry w' ∧
      w'.attempts.map (fun att => att.stage.reply?.map fun reply => (reply.msgId, reply.msgTime)) =
        [none, some (2, 51), some (2, 51)] ∧
      Agreed w' 7 100 ∧ Recalls w w' := by
  obtain ⟨w', run, replies⟩ := Run.of_check (step 1024) (fun _ _ => true) .empty
    (racingAttempts ++ retryAfterExpiry)
    (fun w => decide (w.attempts.map (fun att => att.stage.reply?.map fun reply =>
      (reply.msgId, reply.msgTime)) = [none, some (2, 51), some (2, 51)]))
    (fun _ _ _ => trivial) (by decide)
  obtain ⟨w, first, rest⟩ := run.split
  exact ⟨w, w', first, rest, of_decide_eq_true replies,
    replies_agree initial_empty (by decide) first rest⟩

end Tinyim.Delivery
