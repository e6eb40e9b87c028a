import Tinyim.Delivery.Moves

/-! The cases of a step, seen from one attempt, one save, the table, Redis or idgen. -/
namespace Tinyim.Delivery
open IdGen Dbproxy Logic Transition

inductive Evolves (n : Int) (w w' : World) (a : Nat) (att : Attempt) :
    Event → Attempt → Prop where
  | kept : Evolves n w w' a att e att
  | advanced (adv : Advances w a att e next) : Evolves n w w' a att e next
  | identified {requested : UserAndIdNum} (user : att.nextUser = some requested)
      (served : IdGen.idGenerate n disk requested.userId requested.needMsgidNum w.idgen =
        some (.ok startId, w'.idgen)) :
      Evolves n w w' a att (.idGenerate a disk) { att with
        idReply := att.idReply ++ [MsgIds.mk requested.userId startId requested.needMsgidNum] }
  | idRefused {requested : UserAndIdNum} (user : att.nextUser = some requested)
      (served : IdGen.idGenerate n disk requested.userId requested.needMsgidNum w.idgen =
        some (.error reason, w'.idgen)) :
      Evolves n w w' a att (.idGenerate a disk) { att with stage := .finished (.failed error) }

inductive Proceeds (w w' : World) (job : SaveJob) : SaveJob → Prop where
  | kept : Proceeds w w' job job
  | inserted (running : job.status = .running) (next : job.todo = rows :: todo)
      (stored : insertStatement w.messages rows = some w'.messages) (unsaved : status ≠ .saved) :
      Proceeds w w' job { job with todo, status }
  | stopped (running : job.status = .running) :
      Proceeds w w' job { job with status := .failed error }
  | recorded (running : job.status = .running) (complete : job.todo = []) :
      Proceeds w w' job { job with status := .saved }

variable {n : Int} {w w' : World} {e : Event} {a j : Nat} {att next : Attempt}
  {job later : SaveJob}

@[simp] theorem setAttempt_saves (w : World) : (w.setAttempt a att).saves = w.saves := rfl

@[simp] theorem setAttempt_messages (w : World) : (w.setAttempt a att).messages = w.messages := rfl

@[simp] theorem setAttempt_redis (w : World) : (w.setAttempt a att).redis = w.redis := rfl

@[simp] theorem setAttempt_idgen (w : World) : (w.setAttempt a att).idgen = w.idgen := rfl

@[simp] theorem setSave_attempts (w : World) : (w.setSave j job).attempts = w.attempts := rfl

@[simp] theorem setSave_messages (w : World) : (w.setSave j job).messages = w.messages := rfl

@[simp] theorem setSave_redis (w : World) : (w.setSave j job).redis = w.redis := rfl

@[simp] theorem setSave_idgen (w : World) : (w.setSave j job).idgen = w.idgen := rfl

theorem Advances.event (adv : Advances w a att e next) :
    (∀ m, e ≠ .start m) ∧ ∀ b, e ≠ .saveArrives b := by
  cases adv with
  | failed fault =>
      obtain rfl | rfl | ⟨_, rfl⟩ := fault <;> exact ⟨fun _ => nofun, fun _ => nofun⟩
  | redisHit | redisMiss | selected | lookedUp | groupMembers | idReplied | saveReplied =>
      exact ⟨fun _ => nofun, fun _ => nofun⟩

theorem nextUser_eq_some (user : att.nextUser = some requested) :
    ∃ idRequest, att.stage = .idGenerate idRequest ∧
      idRequest[att.idReply.length]? = some requested := by
  simp only [Attempt.nextUser] at user
  split at user
  · rename_i idRequest stage
    exact ⟨idRequest, stage, user⟩
  · contradiction

theorem attempt_before (moved : Moves n w e w')
    (found : w'.attempts[a]? = some next) :
    (∃ m, e = .start m ∧ next = { newMsg := m } ∧ a = w.attempts.length) ∨
      ∃ att, w.attempts[a]? = some att ∧ Evolves n w w' a att e next := by
  cases moved with
  | started =>
      rename_i m
      obtain ⟨last, rfl⟩ | old := get_push_cases found
      · exact .inl ⟨m, rfl, rfl, last⟩
      · exact .inr ⟨next, old, .kept⟩
  | advanced present adv =>
      obtain ⟨rfl, rfl⟩ | ⟨-, old⟩ := get_set_cases found
      · exact .inr ⟨_, present, .advanced adv⟩
      · exact .inr ⟨next, old, .kept⟩
  | identified present user served =>
      obtain ⟨rfl, rfl⟩ | ⟨-, old⟩ := get_set_cases found
      · exact .inr ⟨_, present, .identified user served⟩
      · exact .inr ⟨next, old, .kept⟩
  | idRefused present user served =>
      obtain ⟨rfl, rfl⟩ | ⟨-, old⟩ := get_set_cases found
      · exact .inr ⟨_, present, .idRefused user served⟩
      · exact .inr ⟨next, old, .kept⟩
  | saveArrived | inserted | insertRefused | lastSendSet | strayed | idgenRestarted
  | redisExpired => exact .inr ⟨next, found, .kept⟩

theorem attempt_after (moved : Moves n w e w')
    (found : w.attempts[a]? = some att) :
    ∃ next, w'.attempts[a]? = some next ∧ Evolves n w w' a att e next := by
  have bound : a < w'.attempts.length := by
    have before := (List.getElem?_eq_some_iff.mp found).1
    cases moved with
    | started => simp only [List.length_append]; omega
    | advanced | identified | idRefused =>
        simpa only [World.setAttempt, List.length_set] using before
    | saveArrived | inserted | insertRefused | lastSendSet | strayed | idgenRestarted
    | redisExpired => exact before
  have after : w'.attempts[a]? = some w'.attempts[a] := List.getElem?_eq_getElem bound
  obtain ⟨m, rfl, fresh⟩ | ⟨old, present, evolved⟩ := attempt_before moved after
  · cases moved with
    | started =>
        refine ⟨att, get_push_old found, .kept⟩
    | advanced _ adv => exact absurd rfl (adv.event.1 m)
  · cases found.symm.trans present
    exact ⟨_, after, evolved⟩

theorem save_before (moved : Moves n w e w')
    (found : w'.saves[j]? = some later) :
    (∃ a att idRequest request, e = .saveArrives a ∧ w.attempts[a]? = some att ∧
      att.stage = .save idRequest request ∧
      later = { attempt := a, request, todo := request.statements } ∧ j = w.saves.length) ∨
    ∃ job, w.saves[j]? = some job ∧ Proceeds w w' job later := by
  cases moved with
  | saveArrived present stage =>
      obtain ⟨last, rfl⟩ | old := get_push_cases found
      · exact .inl ⟨_, _, _, _, rfl, present, stage, rfl, last⟩
      · exact .inr ⟨later, old, .kept⟩
  | inserted present running todo stored after =>
      obtain ⟨rfl, rfl⟩ | ⟨-, old⟩ := get_set_cases found
      · refine .inr ⟨_, present, .inserted running todo stored ?_⟩
        obtain ⟨-, rfl⟩ | ⟨-, rfl⟩ := after
        · exact SaveStatus.noConfusion
        · exact SaveStatus.noConfusion
      · exact .inr ⟨later, old, .kept⟩
  | insertRefused present running =>
      obtain ⟨rfl, rfl⟩ | ⟨-, old⟩ := get_set_cases found
      · exact .inr ⟨_, present, .stopped running⟩
      · exact .inr ⟨later, old, .kept⟩
  | lastSendSet present running complete =>
      rename_i executed reported
      obtain ⟨rfl, rfl⟩ | ⟨-, old⟩ := get_set_cases found
      · cases reported with
        | true => exact .inr ⟨_, present, .recorded running complete⟩
        | false => exact .inr ⟨_, present, .stopped running⟩
      · exact .inr ⟨later, old, .kept⟩
  | started | advanced | identified | idRefused | strayed | idgenRestarted
  | redisExpired => exact .inr ⟨later, found, .kept⟩

theorem save_after (moved : Moves n w e w') (found : w.saves[j]? = some job) :
    ∃ later, w'.saves[j]? = some later ∧ Proceeds w w' job later := by
  have bound : j < w'.saves.length := by
    have before := (List.getElem?_eq_some_iff.mp found).1
    cases moved with
    | saveArrived => simp only [List.length_append]; omega
    | inserted | insertRefused | lastSendSet =>
        simpa only [World.setSave, List.length_set] using before
    | started | advanced | identified | idRefused | strayed | idgenRestarted
    | redisExpired => exact before
  have after : w'.saves[j]? = some w'.saves[j] := List.getElem?_eq_getElem bound
  obtain ⟨a, att, idRequest, request, rfl, -, -, -⟩ | ⟨old, present, proceeded⟩ :=
    save_before moved after
  · cases moved with
    | saveArrived => exact ⟨job, get_push_old found, .kept⟩
    | advanced _ adv => exact absurd rfl (adv.event.2 a)
  · cases found.symm.trans present
    exact ⟨_, after, proceeded⟩

theorem messages_after (moved : Moves n w e w') :
    w'.messages = w.messages ∨
      ∃ (j : Nat) (job : SaveJob) (rows : List Row) (todo : List (List Row)) (status : SaveStatus),
        w.saves[j]? = some job ∧ job.todo = rows :: todo ∧
        insertStatement w.messages rows = some w'.messages ∧
        w'.saves[j]? = some { job with todo, status } := by
  cases moved with
  | inserted present running next stored after =>
      exact .inr ⟨_, _, _, _, _, present, next, stored, get_set_self present⟩
  | started | advanced | identified | idRefused | saveArrived | insertRefused | lastSendSet
  | strayed | idgenRestarted | redisExpired => exact .inl rfl

theorem messages_grow (moved : Moves n w e w') :
    ∃ rows, w'.messages = w.messages ++ rows := by
  obtain same | ⟨_, _, rows, _, _, -, -, stored, -⟩ := messages_after moved
  · exact ⟨[], by rw [same, List.append_nil]⟩
  · exact ⟨rows, (insertStatement_eq_some stored).1⟩

theorem messages_kept (moved : Moves n w e w') (present : row ∈ w.messages) :
    row ∈ w'.messages := by
  obtain ⟨rows, grown⟩ := messages_grow moved
  rw [grown]
  exact List.mem_append_left _ present

/-- Redis keeps a record, loses it or has it replaced by the script of a save that has
executed all its statements. -/
theorem redis_after (moved : Moves n w e w') (found : w'.redis userId = some record) :
    w.redis userId = some record ∨
      ∃ (j : Nat) (job : SaveJob), w.saves[j]? = some job ∧ job.todo = [] ∧
        job.request.sender = userId ∧ record = recordText job.request.lastSend := by
  cases moved with
  | lastSendSet present running complete =>
      rename_i j job executed reported
      cases executed with
      | false => exact .inl found
      | true =>
          simp only [setSave_redis, if_true, Function.update_apply] at found
          split at found
          · rename_i same
            subst same
            obtain rfl | old := setUserLastSendData_cases found
            · exact .inr ⟨j, job, present, complete, rfl, rfl⟩
            · exact .inl old
          · exact .inl found
  | redisExpired =>
      simp only [Function.update_apply] at found
      split at found
      · contradiction
      · exact .inl found
  | started | advanced | identified | idRefused | saveArrived | inserted | insertRefused
  | strayed | idgenRestarted => exact .inl found

theorem Evolves.newMsg (evolved : Evolves n w w' a att e next) : next.newMsg = att.newMsg := by
  cases evolved with
  | advanced adv => cases adv <;> rfl
  | kept | identified | idRefused => rfl

theorem Proceeds.fixed (proceeded : Proceeds w w' job later) :
    later.attempt = job.attempt ∧ later.request = job.request := by
  cases proceeded <;> exact ⟨rfl, rfl⟩

theorem Proceeds.returned (proceeded : Proceeds w w' job later) (returned : job.status ≠ .running) :
    later = job := by
  cases proceeded with
  | kept => rfl
  | inserted running | stopped running | recorded running => exact absurd running returned

end Tinyim.Delivery
