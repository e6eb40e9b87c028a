import Tinyim.Delivery.Contract

/-! Sending a processed message again. The lookup recognises the duplicate exactly
when Redis holds no record of the sender: a record that is there reads as zeros. -/
namespace Tinyim.Delivery
open IdGen Dbproxy Logic Transition

/-- The sender has stored nothing newer than the message, and its own row is `row`. -/
structure StoredLast (w : World) (m : NewMsg) (row : Row) : Prop where
  timed : 0 < m.clientTime
  present : row ∈ w.messages
  key : row.key = (m.userId, m.userId, m.clientTime)
  newest : ∀ other ∈ ownRows w.messages m.userId, other.clientTime ≤ m.clientTime

structure Processed (w : World) (m : NewMsg) (row : Row) : Prop extends StoredLast w m row where
  saved : ∃ job ∈ w.saves, job.status = .saved ∧
    ∃ att ∈ w.attempts[job.attempt]?, att.newMsg = m

def World.retried (w : World) (m : NewMsg) : World :=
  { w with attempts := w.attempts ++ [{ newMsg := m }] }

/-- The new attempt runs alone and nothing fails. -/
def Undisturbed (w : World) (v : World) (e : Event) : Prop :=
  Healthy e ∧ Serves w.attempts.length v e

/-- The new attempt has replied with the stored ids; the table, Redis, idgen, the
saves and the other attempts are as they were, and nobody is pushed to. -/
def Recognised (w v : World) (m : NewMsg) (row : Row) : Prop :=
  ∃ att, v = { w with attempts := w.attempts ++ [att] } ∧ att.newMsg = m ∧
    att.stage = .finished (.duplicate { msgId := row.msgId, msgTime := row.msgTime }) ∧
    att.idReply = [] ∧ att.request = none

/-- A retry can complete, and however it completes it was recognised. -/
def Idempotent (n : Int) (w : World) (m : NewMsg) (row : Row) : Prop :=
  (∃ es v, Run (step n) (Undisturbed w) (w.retried m) es v ∧ Recognised w v m row) ∧
  ∀ es v att outcome, Run (step n) (Undisturbed w) (w.retried m) es v →
    v.attempts[w.attempts.length]? = some att → att.stage = .finished outcome →
      Recognised w v m row

instance : Decidable (Processed w m row) :=
  decidable_of_iff (0 < m.clientTime ∧ row ∈ w.messages ∧
      row.key = (m.userId, m.userId, m.clientTime) ∧
      (∀ other ∈ ownRows w.messages m.userId, other.clientTime ≤ m.clientTime) ∧
      ∃ job ∈ w.saves, job.status = .saved ∧
        ∃ att ∈ w.attempts[job.attempt]?, att.newMsg = m)
    ⟨fun ⟨timed, present, key, newest, saved⟩ => ⟨⟨timed, present, key, newest⟩, saved⟩,
      fun h => ⟨h.timed, h.present, h.key, h.newest, h.saved⟩⟩

instance : Decidable (Undisturbed w v e) := by unfold Undisturbed; infer_instance

variable {listed : Int → List Int → Prop} {n : Int} {w w₀ v v' : World} {e : Event}

theorem StoredLast.lookup (stored : StoredLast w m row) (unique : KeyUnique w.messages) :
    selectLastSend w.messages m.userId =
      { msgId := row.msgId, clientTime := m.clientTime, msgTime := row.msgTime } := by
  obtain ⟨user, sender, time⟩ : row.userId = m.userId ∧ row.sender = m.userId ∧
      row.clientTime = m.clientTime := by
    simpa only [Row.key, Prod.mk.injEq] using stored.key
  have owned : row ∈ ownRows w.messages m.userId :=
    mem_ownRows.mpr ⟨stored.present, user, sender⟩
  obtain ⟨nothing, -⟩ | ⟨other, mine, largest, found⟩ := selectLastSend_cases w.messages m.userId
  · rw [nothing] at owned
    exact absurd owned List.not_mem_nil
  · obtain ⟨present, user', sender'⟩ := mem_ownRows.mp mine
    have atMost := stored.newest other mine
    have atLeast := largest row owned
    have same : other = row := by
      apply unique.eq present stored.present
      simp only [Row.key, user, user', sender, sender']
      rw [show other.clientTime = row.clientTime by omega]
    rw [found, same, time]

/-- How far a recognised retry has got. -/
def Recognising (w v : World) (m : NewMsg) (row : Row) : Prop :=
  ∃ att, v = { w with attempts := w.attempts ++ [att] } ∧ att.newMsg = m ∧
    att.idReply = [] ∧ att.request = none ∧
    (att.stage = .getUserLastSendData ∧ (att.lookup = .redis ∨ att.lookup = .mysql ∨
        att.lookup = .answered
          { msgId := row.msgId, clientTime := m.clientTime, msgTime := row.msgTime }) ∨
      att.stage = .finished (.duplicate { msgId := row.msgId, msgTime := row.msgTime }))

theorem set_last {slots : List α} : (slots ++ [x]).set slots.length y = slots ++ [y] := by
  simp

theorem undisturbed_cases (alone : Undisturbed w v e) (moved : Moves n v e v') :
    (∃ att next, v.attempts[w.attempts.length]? = some att ∧
      Advances v w.attempts.length att e next ∧ v' = v.setAttempt w.attempts.length next) ∨
    (∃ att idRequest, v.attempts[w.attempts.length]? = some att ∧
      (att.stage = .idGenerate idRequest ∨ ∃ request, att.stage = .save idRequest request)) ∨
    ∃ (j : Nat) (job : SaveJob), v.saves[j]? = some job ∧ job.attempt = w.attempts.length := by
  obtain ⟨healthy, serves⟩ := alone
  cases moved with
  | advanced found adv =>
      rename_i att next b
      have same := adv.serves serves
      subst same
      exact .inl ⟨att, next, found, adv, rfl⟩
  | identified found user | idRefused found user =>
      obtain ⟨idRequest, stage, -⟩ := nextUser_eq_some user
      cases serves
      exact .inr (.inl ⟨_, idRequest, found, .inl stage⟩)
  | saveArrived found stage =>
      cases serves
      exact .inr (.inl ⟨_, _, found, .inr ⟨_, stage⟩⟩)
  | inserted | insertRefused | lastSendSet =>
      obtain ⟨job, present, same⟩ := serves
      exact .inr (.inr ⟨_, job, present, same⟩)
  | started | strayed | idgenRestarted | redisExpired => exact serves.elim

theorem recognising_step (stored : StoredLast w m row) (consistent : Consistent listed w)
    (expired : w.redis m.userId = none) (recognising : Recognising w v m row)
    (alone : Undisturbed w v e) (moved : Moves n v e v') : Recognising w v' m row := by
  obtain ⟨att, rfl, rfl, unasked, unbuilt, progress⟩ := recognising
  obtain ⟨found, next, same, adv, rfl⟩ | ⟨found, idRequest, same, stage⟩ |
    ⟨j, job, present, same⟩ := undisturbed_cases alone moved
  · rw [List.getElem?_concat_length] at same
    cases same
    refine ⟨next, by simp only [World.setAttempt, set_last], ?_⟩
    cases adv with
    | redisHit stage lookup present =>
        cases expired.symm.trans present
    | redisMiss stage lookup miss =>
        exact ⟨rfl, unasked, unbuilt, .inl ⟨stage, .inr (.inl rfl)⟩⟩
    | selected stage lookup =>
        refine ⟨rfl, unasked, unbuilt, .inl ⟨stage, .inr (.inr ?_)⟩⟩
        rw [stored.lookup consistent.keys]
    | lookedUp stage lookup =>
        rename_i data
        obtain ⟨-, waiting | waiting | answered⟩ | finished := progress
        · cases waiting.symm.trans lookup
        · cases waiting.symm.trans lookup
        · cases answered.symm.trans lookup
          refine ⟨rfl, unasked, unbuilt, .inr ?_⟩
          simp only [afterGetUserLastSendData, if_true]
        · cases finished.symm.trans stage
    | groupMembers stage | idReplied stage | saveReplied stage =>
        obtain ⟨waiting, -⟩ | finished := progress
        · cases waiting.symm.trans stage
        · cases finished.symm.trans stage
    | failed fault =>
        obtain rfl | rfl | ⟨_, rfl⟩ := fault
        · cases alone.1
        · cases alone.1
        · exact alone.1.elim
  · rw [List.getElem?_concat_length] at same
    cases same
    obtain ⟨waiting, -⟩ | finished := progress
    · obtain stage | ⟨_, stage⟩ := stage <;> cases waiting.symm.trans stage
    · obtain stage | ⟨_, stage⟩ := stage <;> cases finished.symm.trans stage
  · -- The saves of `w` belong to earlier attempts.
    obtain ⟨owner, owned, -⟩ := consistent.owner j job present
    rw [same] at owned
    simp at owned

theorem advance_last {f : Attempt → Option Attempt} (stepped : f att = some next) :
    World.advance { w with attempts := w.attempts ++ [att] } w.attempts.length f =
      some { w with attempts := w.attempts ++ [next] } := by
  simp only [World.advance, List.getElem?_concat_length, Option.bind_eq_bind, Option.bind_some,
    stepped, Option.pure_def, World.setAttempt, set_last]

theorem recognised_run (stored : StoredLast w m row) (unique : KeyUnique w.messages)
    (expired : w.redis m.userId = none) :
    ∃ es v, Run (step n) (Undisturbed w) (w.retried m) es v ∧ Recognised w v m row := by
  let data : UserLastSendData :=
    { msgId := row.msgId, clientTime := m.clientTime, msgTime := row.msgTime }
  let reply : MsgReply := { msgId := row.msgId, msgTime := row.msgTime }
  let looking : Attempt := { newMsg := m, lookup := .mysql }
  let answered : Attempt := { newMsg := m, lookup := .answered data }
  let finished : Attempt := { answered with stage := .finished (.duplicate reply) }
  have missed : step n (w.retried m) (.redisGet w.attempts.length .value) =
      some { w with attempts := w.attempts ++ [looking] } := by
    apply advance_last
    simp only [Attempt.redisGet, World.retried, expired]
    rfl
  have queried : step n { w with attempts := w.attempts ++ [looking] }
      (.select w.attempts.length true) = some { w with attempts := w.attempts ++ [answered] } := by
    apply advance_last
    simp only [looking, Attempt.select, stored.lookup unique, if_true]
    rfl
  have replied : step n { w with attempts := w.attempts ++ [answered] }
      (.lookedUp w.attempts.length) = some { w with attempts := w.attempts ++ [finished] } := by
    apply advance_last
    simp only [answered, data, Attempt.lookedUp, afterGetUserLastSendData, if_true]
    rfl
  refine ⟨[.redisGet w.attempts.length .value, .select w.attempts.length true,
    .lookedUp w.attempts.length], _, ?_, finished, rfl, rfl, rfl, rfl, rfl⟩
  exact .next ⟨rfl, rfl⟩ missed (.next ⟨rfl, rfl⟩ queried (.next ⟨trivial, rfl⟩ replied (.refl _)))

theorem idempotent_of_expired (stored : StoredLast w m row) (consistent : Consistent listed w)
    (expired : w.redis m.userId = none) : Idempotent n w m row := by
  have always : ∀ {es v}, Run (step n) (Undisturbed w) (w.retried m) es v →
      Recognising w v m row := by
    intro es v run
    refine run.invariant (Recognising w · m row) (fun recognising alone stepped =>
      recognising_step stored consistent expired recognising alone (moves_of_step stepped)) ?_
    exact ⟨{ newMsg := m }, rfl, rfl, rfl, rfl, .inl ⟨rfl, .inl rfl⟩⟩
  constructor
  · exact recognised_run stored consistent.keys expired
  · intro es v att outcome run found finished
    obtain ⟨last, rfl, same, unasked, unbuilt, ⟨waiting, -⟩ | stage⟩ := always run
    · rw [List.getElem?_concat_length] at found
      cases found
      cases waiting.symm.trans finished
    · exact ⟨last, rfl, same, stage, unasked, unbuilt⟩

/-- A retry that a record of the sender keeps from being recognised. -/
def Overlooked (w v : World) (m : NewMsg) : Prop :=
  ∃ att, v.attempts[w.attempts.length]? = some att ∧ att.newMsg = m ∧
    (∀ reply, att.stage ≠ .finished (.duplicate reply)) ∧
    (att.stage = .getUserLastSendData →
      att.lookup = .redis ∧ v.redis m.userId ≠ none ∨ att.lookup = .answered {})

theorem record_kept (alone : Undisturbed w v e) (moved : Moves n v e v')
    (recorded : v.redis userId ≠ none) : v'.redis userId ≠ none := by
  cases moved with
  | lastSendSet =>
      rename_i j job executed reported _ _ _
      cases executed with
      | false => exact recorded
      | true =>
          simp only [setSave_redis, if_true, Function.update_apply]
          split
          · rename_i same
            subst same
            cases old : v.redis job.request.sender with
            | none => exact absurd old recorded
            | some record => simp only [setUserLastSendData]; split <;> simp
          · exact recorded
  | redisExpired => exact alone.2.elim
  | started | advanced | identified | idRefused | saveArrived | inserted | insertRefused
  | strayed | idgenRestarted => exact recorded

theorem overlooked_step (timed : 0 < m.clientTime) (consistent : Consistent listed v)
    (overlooked : Overlooked w v m) (alone : Undisturbed w v e) (moved : Moves n v e v') :
    Overlooked w v' m := by
  obtain ⟨att, found, rfl, unseen, looking⟩ := overlooked
  obtain ⟨next, after, evolved⟩ := attempt_after moved found
  refine ⟨next, after, evolved.newMsg, ?_, ?_⟩
  · intro reply finished
    obtain before | ⟨data, stage, answered, same, -⟩ := duplicate_evolves evolved finished
    · exact unseen reply before
    · obtain ⟨waiting, -⟩ | zeros := looking stage
      · cases waiting.symm.trans answered
      · cases zeros.symm.trans answered
        rw [← same] at timed
        exact absurd timed (lt_irrefl _)
  · intro stage
    cases evolved with
    | kept | identified =>
        obtain ⟨lookup, recorded⟩ | zeros := looking stage
        · exact .inl ⟨lookup, record_kept alone moved recorded⟩
        · exact .inr zeros
    | idRefused => cases stage
    | advanced adv =>
        cases adv with
        | redisHit waiting lookup present =>
            obtain ⟨d, rfl⟩ := consistent.written _ _ present
            exact .inr rfl
        | redisMiss waiting lookup miss =>
            obtain ⟨-, recorded⟩ | zeros := looking stage
            · obtain ⟨-, absent⟩ | rfl := miss
              · exact absurd absent recorded
              · cases alone.1
            · cases zeros.symm.trans lookup
        | selected waiting lookup =>
            obtain ⟨asking, -⟩ | zeros := looking stage
            · cases asking.symm.trans lookup
            · cases zeros.symm.trans lookup
        | lookedUp => exact absurd stage (afterGetUserLastSendData_ne _ _)
        | saveReplied =>
            rename_i idRequest request j job result _ _ _ _
            obtain ⟨_, after, -⟩ :=
              afterSave_finishes att.newMsg idRequest att.idReply request result
            cases after.symm.trans stage
        | groupMembers | idReplied | failed => cases stage

theorem not_idempotent_of_recorded (stored : StoredLast w m row)
    (consistent : Consistent (fun _ _ => True) w) (recorded : w.redis m.userId ≠ none) :
    ¬ Idempotent n w m row := by
  rintro ⟨⟨es, v, run, last, rfl, -, finished, -⟩, -⟩
  have started : Moves n w (.start m) (w.retried m) := .started
  have always := run_along (Overlooked w · m)
    (fun consistent overlooked alone moved =>
      overlooked_step stored.timed consistent overlooked alone moved) run
    (consistent.step (lists_any _ _) started)
    ⟨{ newMsg := m }, List.getElem?_concat_length, rfl, nofun, fun _ => .inl ⟨rfl, recorded⟩⟩
  obtain ⟨-, att, found, -, unseen, -⟩ := always
  rw [List.getElem?_concat_length] at found
  cases found
  exact unseen _ finished

/-- Retrying a processed message is idempotent exactly when its record has expired. -/
theorem retry_idempotent_iff (initial : Initial w₀)
    (run : Run (step n) (fun _ _ => True) w₀ es w) (stored : StoredLast w m row) :
    Idempotent n w m row ↔ w.redis m.userId = none := by
  have consistent := consistent_of_run initial run
  constructor
  · intro idempotent
    by_contra recorded
    exact not_idempotent_of_recorded stored consistent recorded idempotent
  · exact idempotent_of_expired stored consistent

def toFriend : NewMsg := ⟨7, 8, .PRIVATE, "hi".toList, 100, 0⟩

/-- The row that user 7 keeps of it. -/
def friendRow : Row where
  userId := 7
  sender := 7
  receiver := 8
  msgId := 1
  groupId := 0
  message := "hi".toList
  clientTime := 100
  msgTime := 50

def friendMessageSaved : List Event :=
  [.start toFriend, .redisGet 0 .value, .select 0 true, .lookedUp 0, .idGenerate 0 {},
    .idGenerate 0 {}, .idReplied 0 50, .saveArrives 0, .insert 0 .executed,
    .setLastSend 0 true true, .saveReplied 0 0]

/-- The retry is not recognised, takes new ids and runs into the unique key. -/
def unrecognisedRetry : List Event :=
  [.redisGet 1 .value, .lookedUp 1, .idGenerate 1 {}, .idGenerate 1 {}, .idReplied 1 60,
    .saveArrives 1, .insert 1 .executed, .saveReplied 1 1]

theorem retry_idempotent_after_expiry :
    ∃ w, Run (step 1024) (fun _ _ => True) .empty (friendMessageSaved ++ [.redisExpires 7]) w ∧
      Processed w toFriend friendRow ∧ w.redis 7 = none ∧
      (Idempotent 1024 w toFriend friendRow ↔ w.redis 7 = none) := by
  obtain ⟨w, run, checked⟩ := Run.of_check (step 1024) (fun _ _ => true) .empty
    (friendMessageSaved ++ [.redisExpires 7])
    (fun w => decide (Processed w toFriend friendRow ∧ w.redis 7 = none))
    (fun _ _ _ => trivial) (by decide)
  obtain ⟨processed, expired⟩ := of_decide_eq_true checked
  exact ⟨w, run, processed, expired, retry_idempotent_iff initial_empty run processed.toStoredLast⟩

/-- With the record present a healthy retry of a stored message fails and uses up ids. -/
theorem recorded_retry_fails :
    ∃ w v, Run (step 1024) (fun _ _ => True) .empty friendMessageSaved w ∧
      Processed w toFriend friendRow ∧ lastId w.idgen 8 = 1 ∧
      Run (step 1024) (Undisturbed w) (w.retried toFriend) unrecognisedRetry v ∧
      v.attempts[w.attempts.length]?.map Attempt.stage =
        some (.finished (.failed insertFailed)) ∧
      lastId v.idgen 8 = 2 ∧ ¬ Idempotent 1024 w toFriend friendRow := by
  obtain ⟨w, run, checked⟩ := Run.of_check (step 1024) (fun _ _ => true) .empty
    friendMessageSaved
    (fun w => decide (Processed w toFriend friendRow ∧ lastId w.idgen 8 = 1 ∧
      (exec (step 1024) (fun v e => decide (Undisturbed w v e)) (w.retried toFriend)
        unrecognisedRetry).any (fun v => decide (v.attempts[w.attempts.length]?.map Attempt.stage =
          some (.finished (.failed insertFailed)) ∧ lastId v.idgen 8 = 2)) = true))
    (fun _ _ _ => trivial) (by decide)
  obtain ⟨processed, before, retried⟩ := of_decide_eq_true checked
  obtain ⟨v, alone, checked⟩ : ∃ v, Run (step 1024) (Undisturbed w) (w.retried toFriend)
      unrecognisedRetry v ∧ _ :=
    Run.of_check (step 1024) _ _ _ _ (fun _ _ => of_decide_eq_true) retried
  obtain ⟨failed, used⟩ := of_decide_eq_true checked
  refine ⟨w, v, run, processed, before, alone, failed, used, ?_⟩
  intro idempotent
  obtain ⟨att, found, stage⟩ := Option.map_eq_some_iff.mp failed
  obtain ⟨last, rfl, -, finished, -⟩ := idempotent.2 _ v att _ alone found stage
  rw [List.getElem?_concat_length] at found
  cases found
  cases finished.symm.trans stage

end Tinyim.Delivery
