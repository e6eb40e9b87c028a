import Tinyim.Delivery.Exactness

/-! Fault-free attempts always get to their end: an unfinished one has a step of its
own to take, and each of these leaves it less to do. -/
namespace Tinyim.Delivery
open IdGen Dbproxy Logic Transition

def World.saveOf (w : World) (a : Nat) : Option SaveJob := w.saves.find? (·.attempt = a)

/-- A bound on the steps that an attempt still has to take, given its save. -/
def Attempt.work (membership : Int → List Int) (save : Option SaveJob) (att : Attempt) : Nat :=
  let users := (participants membership att.newMsg).length
  match att.stage with
  | .getUserLastSendData =>
    2 * users + 6 + match att.lookup with
      | .redis => 2
      | .mysql => 1
      | .answered _ => 0
  | .getGroupMembers => 2 * users + 5
  | .idGenerate _ => users + 4 + (users - att.idReply.length)
  | .save _ request =>
    match save with
    | none => request.statements.length + 3
    | some job => match job.status with
      | .running => job.todo.length + 2
      | .saved | .failed _ => 1
  | .finished _ => 0

def World.work (membership : Int → List Int) (a : Nat) (w : World) : Nat :=
  match w.attempts[a]? with
  | some att => att.work membership (w.saveOf a)
  | none => 0

def Succeeded (w : World) (a : Nat) : Prop :=
  ∃ att ∈ w.attempts[a]?, ∃ reply args, att.stage = .finished (.accepted reply args)

/-- The ids of the participants lie in the array and in the 64-bit range, with one block to
spare. -/
def InRange (n : Int) (membership : Int → List Int) (w : World) (m : NewMsg) : Prop :=
  ∀ u ∈ participants membership m, 0 ≤ u ∧ lastId w.idgen u + 1 + n < 2 ^ 63

variable {membership : Int → List Int} {n : Int} {w w₀ w' : World} {e : Event} {a j : Nat}
  {att next : Attempt} {job later : SaveJob}

namespace Exact

theorem saveOf_eq (sound : Exact membership w) (present : w.saves[j]? = some job) :
    w.saveOf job.attempt = some job := by
  cases found : w.saveOf job.attempt with
  | none =>
      have absent := List.find?_eq_none.mp found job (List.mem_of_getElem? present)
      simp at absent
  | some other =>
      have attempt : other.attempt = job.attempt := by
        simpa using List.find?_some found
      obtain ⟨i, present'⟩ := List.mem_iff_getElem?.mp (List.mem_of_find?_eq_some found)
      have same := sound.oneSave i j other job present' present attempt
      subst same
      cases present.symm.trans present'
      rfl

theorem saveOf_none (absent : ∀ job ∈ w.saves, job.attempt ≠ a) : w.saveOf a = none := by
  refine List.find?_eq_none.mpr ?_
  intro job member
  simpa using absent job member

theorem running_stage (sound : Exact membership w) (present : w.saves[j]? = some job)
    (running : job.status = .running) :
    ∃ att idRequest, w.attempts[job.attempt]? = some att ∧
      att.stage = .save idRequest job.request := by
  obtain ⟨att, owned, requested, -⟩ := sound.consistent.built present
  have shape := sound.consistent.shape _ att owned
  cases stage : att.stage with
  | getUserLastSendData => simp [Attempt.Shape, stage, requested] at shape
  | getGroupMembers => simp [Attempt.Shape, stage, requested] at shape
  | idGenerate idRequest => simp [Attempt.Shape, stage, requested] at shape
  | save idRequest request =>
      simp only [Attempt.Shape, stage, requested, Option.some.injEq] at shape
      obtain ⟨rfl, -⟩ := shape
      exact ⟨att, idRequest, owned, stage⟩
  | finished outcome =>
      obtain ⟨reply, args, rfl⟩ := sound.outcome _ att outcome owned stage
      obtain ⟨i, other, present', attempt, saved, -⟩ := sound.consistent.accepted_save owned stage
      have same := sound.oneSave i j other job present' present attempt
      subst same
      cases present.symm.trans present'
      rw [running] at saved
      cases saved

theorem request_length (sound : Exact membership w) (found : w.attempts[a]? = some att)
    (stage : att.stage = .idGenerate idRequest) :
    idRequest.length = (participants membership att.newMsg).length ∧
      att.idReply.length ≤ idRequest.length := by
  have shape := sound.consistent.shape a att found
  simp only [Attempt.Shape, stage] at shape
  obtain ⟨asked, -, answers⟩ := shape
  have users := congrArg List.length asked.participants
  have served := answers.length_le
  simp only [List.length_map] at users served
  exact ⟨users, served⟩

theorem saveOf_unrequested (sound : Exact membership w) (found : w.attempts[a]? = some att)
    (unrequested : att.request = none) : w.saveOf a = none := by
  apply saveOf_none
  rintro job member rfl
  obtain ⟨j, present⟩ := List.mem_iff_getElem?.mp member
  obtain ⟨owner, owned, requested, -⟩ := sound.consistent.built present
  cases found.symm.trans owned
  rw [unrequested] at requested
  cases requested

theorem advances_work (sound : Exact membership w) (healthy : Healthy e)
    (lists : Lists (Fixed membership) w e) (found : w.attempts[a]? = some att)
    (adv : Advances w a att e next) :
    next.work membership (w.saveOf a) < att.work membership (w.saveOf a) := by
  cases adv with
  | redisHit stage lookup => simp only [Attempt.work, stage, lookup]; omega
  | redisMiss stage lookup => simp only [Attempt.work, stage, lookup]; omega
  | selected stage lookup => simp only [Attempt.work, stage, lookup]; omega
  | lookedUp stage lookup =>
      rename_i data
      have shape := sound.consistent.shape a att found
      simp only [Attempt.Shape, stage] at shape
      obtain ⟨-, after⟩ | ⟨-, ⟨-, after⟩ | ⟨-, after⟩⟩ :=
        afterGetUserLastSendData_cases att.newMsg data
      · simp only [Attempt.work, stage, lookup, after]; omega
      · simp only [Attempt.work, stage, lookup, after, shape.1, List.length_nil]; omega
      · simp only [Attempt.work, stage, lookup, after]; omega
  | groupMembers stage =>
      have shape := sound.consistent.shape a att found
      simp only [Attempt.Shape, stage] at shape
      simp only [Attempt.work, stage, afterGetGroupMembers, shape.2.1, List.length_nil]; omega
  | idReplied stage complete built =>
      rename_i idRequest msgTime request
      have shape := sound.consistent.shape a att found
      have shape' := shape.advances (w := w) (lists.answer found)
        (.idReplied stage complete built)
      simp only [Attempt.Shape, stage] at shape shape'
      have users := sound.request_length found stage
      have short := shape'.2.statements_le
      rw [sound.saveOf_unrequested found shape.2.1]
      simp only [Attempt.work, stage]
      omega
  | saveReplied stage present asked returned =>
      rename_i idRequest request j job result
      obtain ⟨args, after⟩ := sound.saved_accepts found stage present returned
      subst asked
      rw [sound.saveOf_eq present]
      cases status : job.status with
      | running => rw [status] at returned; cases returned
      | saved | failed => simp only [Attempt.work, stage, after, status]; omega
  | failed fault =>
      obtain rfl | rfl | ⟨_, rfl⟩ := fault
      · cases healthy
      · cases healthy
      · exact healthy.elim

theorem saveOf_kept (sound : Exact membership w')
    (same : ∀ (i : Nat) job, job.attempt = a → (w.saves[i]? = some job ↔ w'.saves[i]? = some job)) :
    w'.saveOf a = w.saveOf a := by
  cases found : w.saveOf a with
  | none =>
      apply saveOf_none
      intro job member attempt
      obtain ⟨i, present⟩ := List.mem_iff_getElem?.mp member
      have before := (same i job attempt).mpr present
      have absent := List.find?_eq_none.mp found job (List.mem_of_getElem? before)
      simp [attempt] at absent
  | some job =>
      have attempt : job.attempt = a := by simpa using List.find?_some found
      obtain ⟨i, present⟩ := List.mem_iff_getElem?.mp (List.mem_of_find?_eq_some found)
      rw [← attempt]
      exact sound.saveOf_eq ((same i job attempt).mp present)

theorem saveOf_set (sound : Exact membership w') (saves : w'.saves = w.saves.set j later)
    (present : w.saves[j]? = some job) (attempt : later.attempt = job.attempt)
    (other : a ≠ job.attempt) : w'.saveOf a = w.saveOf a := by
  apply saveOf_kept sound
  intro i found owner
  rw [saves]
  by_cases same : i = j
  · subst same
    rw [get_set_self present, present]
    constructor
    · intro this
      cases this
      exact absurd owner.symm other
    · intro this
      cases this
      exact absurd (owner.symm.trans attempt) other
  · rw [List.getElem?_set_ne (Ne.symm same)]

theorem saveOf_push (sound : Exact membership w') (saves : w'.saves = w.saves ++ [later])
    (other : a ≠ later.attempt) : w'.saveOf a = w.saveOf a := by
  apply saveOf_kept sound
  intro i found owner
  rw [saves]
  constructor
  · exact get_push_old
  · intro after
    obtain ⟨-, rfl⟩ | old := get_push_cases after
    · exact absurd owner.symm other
    · exact old

theorem attempt_work {owner next : Attempt} (found : w.attempts[a]? = some att)
    (present : w.attempts[b]? = some owner)
    (less : next.work membership (w.saveOf b) < owner.work membership (w.saveOf b)) :
    ∃ later, (w.attempts.set b next)[a]? = some later ∧
      later.work membership (w.saveOf a) ≤ att.work membership (w.saveOf a) ∧
      (b = a → later.work membership (w.saveOf a) < att.work membership (w.saveOf a)) := by
  by_cases same : b = a
  · subst same
    cases found.symm.trans present
    exact ⟨next, get_set_self present, less.le, fun _ => less⟩
  · exact ⟨att, (List.getElem?_set_ne same).trans found, le_refl _,
      fun serves => absurd serves same⟩

theorem save_work (sound : Exact membership w) (sound' : Exact membership w')
    (found : w.attempts[a]? = some att) (saves : w'.saves = w.saves.set j later)
    (present : w.saves[j]? = some job)
    (attempt : later.attempt = job.attempt) (running : job.status = .running)
    (less : later.status = .running ∧ later.todo.length < job.todo.length ∨
      later.status = .saved) :
    att.work membership (w'.saveOf a) ≤ att.work membership (w.saveOf a) ∧
      ((∃ other ∈ w.saves[j]?, other.attempt = a) →
        att.work membership (w'.saveOf a) < att.work membership (w.saveOf a)) := by
  have served : (∃ other ∈ w.saves[j]?, other.attempt = a) → job.attempt = a := by
    rintro ⟨other, here, serves⟩
    cases present.symm.trans here
    exact serves
  by_cases own : job.attempt = a
  · obtain ⟨owner, idRequest, owned, stage⟩ := sound.running_stage present running
    rw [own] at owned
    cases found.symm.trans owned
    have after : w'.saves[j]? = some later := by rw [saves, get_set_self present]
    have before := sound.saveOf_eq present
    have now := sound'.saveOf_eq after
    rw [own] at before
    rw [attempt, own] at now
    rw [before, now]
    have smaller : att.work membership (some later) < att.work membership (some job) := by
      obtain ⟨status, shorter⟩ | status := less
      · simp only [Attempt.work, stage, running, status]; omega
      · simp only [Attempt.work, stage, running, status]; omega
    exact ⟨smaller.le, fun _ => smaller⟩
  · rw [saveOf_set sound' saves present attempt (Ne.symm own)]
    exact ⟨le_refl _, fun serves => absurd (served serves) own⟩

theorem arrived_work {owner : Attempt} (sound' : Exact membership w')
    (single : ∀ job ∈ w.saves, job.attempt ≠ b) (found : w.attempts[a]? = some att)
    (present : w.attempts[b]? = some owner) (stage : owner.stage = .save idRequest request)
    (saves : w'.saves = w.saves ++ [{ attempt := b, request, todo := request.statements }]) :
    att.work membership (w'.saveOf a) ≤ att.work membership (w.saveOf a) ∧
      (b = a → att.work membership (w'.saveOf a) < att.work membership (w.saveOf a)) := by
  by_cases same : a = b
  · subst same
    cases found.symm.trans present
    have arrived : w'.saves[w.saves.length]? =
        some { attempt := a, request, todo := request.statements } := by
      rw [saves, List.getElem?_concat_length]
    have now : w'.saveOf a = some { attempt := a, request, todo := request.statements } :=
      sound'.saveOf_eq arrived
    have less :
        att.work membership (some { attempt := a, request, todo := request.statements }) <
          att.work membership none := by
      simp only [Attempt.work, stage]
      omega
    rw [saveOf_none single, now]
    exact ⟨less.le, fun _ => less⟩
  · rw [saveOf_push sound' saves same]
    exact ⟨le_refl _, fun serves => absurd serves.symm same⟩

/-- A step of a fault-free run never gives an attempt more to do, and a step of its own
gives it less. -/
theorem work_step (sound : Exact membership w) (nodup : ∀ g, (membership g).Nodup)
    (free : FaultFree membership w e) (moved : Moves n w e w')
    (found : w.attempts[a]? = some att) :
    ∃ next, w'.attempts[a]? = some next ∧
      next.work membership (w'.saveOf a) ≤ att.work membership (w.saveOf a) ∧
      (Serves a w e → next.work membership (w'.saveOf a) < att.work membership (w.saveOf a)) := by
  have sound' := sound.step nodup free moved
  obtain ⟨healthy, single, proper, lists⟩ := free
  cases moved with
  | started => exact ⟨att, get_push_old found, le_refl _, False.elim⟩
  | advanced present adv =>
      obtain ⟨next, here, le, less⟩ :=
        attempt_work found present (sound.advances_work healthy lists present adv)
      exact ⟨next, here, le, fun serves => less (adv.serves serves)⟩
  | identified present user served =>
      rename_i disk idgen startId b owner requested
      obtain ⟨idRequest, stage, place⟩ := nextUser_eq_some user
      have users := sound.request_length present stage
      have place := (List.getElem?_eq_some_iff.mp place).1
      refine attempt_work found present ?_
      simp only [Attempt.work, stage, List.length_append,
        List.length_singleton]
      omega
  | idRefused present user served =>
      cases healthy
      exact (served_not_refused served).elim
  | saveArrived present stage =>
      exact ⟨att, found, arrived_work sound' single found present stage rfl⟩
  | inserted present running next stored after =>
      refine ⟨att, found, ?_⟩
      obtain ⟨-, rfl⟩ | ⟨rfl, -⟩ := after
      · exact sound.save_work sound' found rfl present rfl running (.inl ⟨rfl, by simp [next]⟩)
      · cases healthy
  | insertRefused present running next cause =>
      obtain rfl | conflict := cause
      · cases healthy
      · rw [sound.no_conflict nodup present next] at conflict
        cases conflict
  | lastSendSet present running complete =>
      obtain ⟨rfl, rfl⟩ := healthy
      exact ⟨att, found, sound.save_work sound' found rfl present rfl running (.inr rfl)⟩
  | strayed | idgenRestarted => exact healthy.elim
  | redisExpired => exact ⟨att, found, le_refl _, False.elim⟩

theorem save_enabled (sound : Exact membership w) (nodup : ∀ g, (membership g).Nodup)
    (found : w.attempts[a]? = some att) (stage : att.stage = .save idRequest request)
    (present : w.saves[j]? = some job) (attempt : job.attempt = a) :
    ∃ e w', FaultFree membership w e ∧ Serves a w e ∧ Delivery.step n w e = some w' := by
  cases status : job.status with
  | running =>
      cases next : job.todo with
      | nil =>
          have stepped : ∃ w', w.setLastSend j true true = some w' := by
            simp only [World.setLastSend, present, status, next, Option.bind_eq_bind,
              Option.bind_some, Option.pure_def]
            exact ⟨_, rfl⟩
          obtain ⟨w', stepped⟩ := stepped
          exact ⟨.setLastSend j true true, w', ⟨⟨rfl, rfl⟩, trivial, trivial, trivial⟩,
            ⟨job, present, attempt⟩, stepped⟩
      | cons rows todo =>
          have stepped : ∃ w', w.insert j .executed = some w' := by
            simp only [World.insert, present, status, next, sound.no_conflict nodup present next,
              Option.bind_eq_bind, Option.bind_some, Option.pure_def]
            exact ⟨_, rfl⟩
          obtain ⟨w', stepped⟩ := stepped
          exact ⟨.insert j .executed, w', ⟨rfl, trivial, trivial, trivial⟩,
            ⟨job, present, attempt⟩, stepped⟩
  | saved =>
      have stepped : ∃ w', w.saveReplied a j = some w' := by
        simp only [World.saveReplied, present, status, SaveStatus.result?, attempt, World.advance,
          found, Attempt.saveReplied, stage, Option.bind_eq_bind, Option.bind_some, if_true,
          Option.pure_def]
        exact ⟨_, rfl⟩
      obtain ⟨w', stepped⟩ := stepped
      exact ⟨.saveReplied a j, w', ⟨trivial, trivial, trivial, trivial⟩, rfl, stepped⟩
  | failed error => exact absurd status (sound.saving j job present error)

theorem lookup_enabled (found : w.attempts[a]? = some att)
    (stage : att.stage = .getUserLastSendData) :
    ∃ e w', FaultFree membership w e ∧ Serves a w e ∧ Delivery.step n w e = some w' := by
  cases lookup : att.lookup with
  | redis =>
      obtain ⟨next, stepped⟩ : ∃ next,
          att.redisGet (w.redis att.newMsg.userId) .value = some next := by
        simp only [Attempt.redisGet, stage, lookup]
        cases w.redis att.newMsg.userId with
        | none => exact ⟨_, rfl⟩
        | some record => exact ⟨_, rfl⟩
      exact ⟨.redisGet a .value, _, ⟨rfl, trivial, trivial, trivial⟩, rfl,
        advance_of found stepped⟩
  | mysql =>
      have stepped : att.select w.messages true = some { att with
          lookup := .answered (selectLastSend w.messages att.newMsg.userId) } := by
        simp only [Attempt.select, stage, lookup, if_true]
      exact ⟨.select a true, _, ⟨rfl, trivial, trivial, trivial⟩, rfl,
        advance_of found stepped⟩
  | answered data =>
      have stepped : att.lookedUp = some { att with
          stage := afterGetUserLastSendData att.newMsg (.ok data) } := by
        simp only [Attempt.lookedUp, stage, lookup]
      exact ⟨.lookedUp a, _, ⟨trivial, trivial, trivial, trivial⟩, rfl,
        advance_of found stepped⟩

theorem idGenerate_enabled (sound : Exact membership w) (positive : 0 < n)
    (found : w.attempts[a]? = some att) (stage : att.stage = .idGenerate idRequest)
    (room : InRange n membership w att.newMsg) :
    ∃ e w', FaultFree membership w e ∧ Serves a w e ∧ Delivery.step n w e = some w' := by
  have shape := sound.consistent.shape a att found
  simp only [Attempt.Shape, stage] at shape
  obtain ⟨-, served⟩ := sound.request_length found stage
  by_cases complete : att.idReply.length = idRequest.length
  · obtain ⟨request, built⟩ := saveRequest_defined shape.1 complete 0
    have stepped : att.idReplied 0 = some { att with
        stage := .save idRequest request, request := some request } := by
      simp only [Attempt.idReplied, stage, complete, if_true, built, Option.map_some]
    exact ⟨.idReplied a 0, _, ⟨trivial, trivial, trivial, trivial⟩, rfl,
      advance_of found stepped⟩
  · have place : att.idReply.length < idRequest.length := by omega
    have user : att.nextUser = some idRequest[att.idReply.length] := by
      simp only [Attempt.nextUser, stage]
      exact List.getElem?_eq_getElem place
    have need := nextUser_need sound.consistent found user
    have participant : idRequest[att.idReply.length].userId ∈
        participants membership att.newMsg := by
      rw [← shape.1.participants]
      exact List.mem_map_of_mem (List.getElem_mem place)
    obtain ⟨inside, below⟩ := room _ participant
    obtain ⟨result, defined⟩ : ∃ result, IdGen.idGenerate n {}
        idRequest[att.idReply.length].userId idRequest[att.idReply.length].needMsgidNum
        w.idgen = some result := by
      rw [need]
      exact idGenerate_defined inside positive (by omega) (sound.numbered.nonneg _) (by omega)
    have stepped : ∃ w', w.idGenerate n {} a = some w' := by
      simp only [World.idGenerate, found, user, defined, Option.bind_eq_bind,
        Option.bind_some, Option.pure_def]
      exact ⟨_, rfl⟩
    obtain ⟨w', stepped⟩ := stepped
    exact ⟨.idGenerate a {}, w', ⟨rfl, trivial, trivial, trivial⟩, rfl, stepped⟩

theorem saveArrives_enabled (found : w.attempts[a]? = some att)
    (stage : att.stage = .save idRequest request) (none_yet : w.saveOf a = none) :
    ∃ e w', FaultFree membership w e ∧ Serves a w e ∧ Delivery.step n w e = some w' := by
  have single : ∀ job ∈ w.saves, job.attempt ≠ a := by
    intro job member
    simpa using List.find?_eq_none.mp none_yet job member
  have stepped : ∃ w', w.saveArrives a = some w' := by
    simp only [World.saveArrives, found, stage, Option.bind_eq_bind, Option.bind_some,
      Option.pure_def]
    exact ⟨_, rfl⟩
  obtain ⟨w', stepped⟩ := stepped
  exact ⟨.saveArrives a, w', ⟨trivial, single, trivial, trivial⟩, rfl, stepped⟩

theorem enabled (sound : Exact membership w) (nodup : ∀ g, (membership g).Nodup)
    (positive : 0 < n) (found : w.attempts[a]? = some att)
    (unfinished : ∀ outcome, att.stage ≠ .finished outcome)
    (room : InRange n membership w att.newMsg) :
    ∃ e w', FaultFree membership w e ∧ Serves a w e ∧ Delivery.step n w e = some w' := by
  have lists : ∀ members, Fixed membership att.newMsg.peerId members →
      Lists (Fixed membership) w (.groupMembers a members) := by
    intro members fixed other present
    cases found.symm.trans present
    exact fixed
  cases stage : att.stage with
  | getUserLastSendData => exact lookup_enabled found stage
  | getGroupMembers =>
      have stepped : att.groupMembers (membership att.newMsg.peerId) = some { att with
          stage := afterGetGroupMembers att.newMsg (.ok (membership att.newMsg.peerId)) } := by
        simp only [Attempt.groupMembers, stage]
      exact ⟨.groupMembers a _, _, ⟨trivial, trivial, trivial, lists _ rfl⟩, rfl,
        advance_of found stepped⟩
  | idGenerate idRequest => exact sound.idGenerate_enabled positive found stage room
  | save idRequest request =>
      cases save : w.saveOf a with
      | none => exact saveArrives_enabled found stage save
      | some job =>
          have attempt : job.attempt = a := by simpa using List.find?_some save
          obtain ⟨j, present⟩ := List.mem_iff_getElem?.mp (List.mem_of_find?_eq_some save)
          exact sound.save_enabled nodup found stage present attempt
  | finished outcome => exact absurd stage (unfinished outcome)

theorem succeeded_iff (sound : Exact membership w) (found : w.attempts[a]? = some att) :
    Succeeded w a ↔ ∃ outcome, att.stage = .finished outcome := by
  constructor
  · rintro ⟨other, present, reply, args, finished⟩
    cases found.symm.trans present
    exact ⟨_, finished⟩
  · rintro ⟨outcome, finished⟩
    obtain ⟨reply, args, rfl⟩ := sound.outcome a att outcome found finished
    exact ⟨att, found, reply, args, finished⟩

theorem succeeded_of_work (sound : Exact membership w) (found : w.attempts[a]? = some att)
    (done : att.work membership (w.saveOf a) = 0) : Succeeded w a := by
  apply (sound.succeeded_iff found).mpr
  cases stage : att.stage with
  | finished outcome => exact ⟨outcome, rfl⟩
  | getUserLastSendData | getGroupMembers | idGenerate =>
      simp only [Attempt.work, stage] at done
      omega
  | save idRequest request =>
      simp only [Attempt.work, stage] at done
      split at done
      · omega
      · split at done <;> omega

/-- Whatever the other calls do, an attempt returns success after so many steps of its own. -/
theorem work_run (sound : Exact membership w) (nodup : ∀ g, (membership g).Nodup)
    (run : Run (Delivery.step n) (FaultFree membership) w es w')
    (found : w.attempts[a]? = some att) :
    ∃ last, w'.attempts[a]? = some last ∧ last.newMsg = att.newMsg ∧
      last.work membership (w'.saveOf a) + stepsOf (Delivery.step n) (Serves a) w es ≤
        att.work membership (w.saveOf a) := by
  have kept : ∀ {v e v'}, (Exact membership v ∧ ∃ next, v.attempts[a]? = some next ∧
        next.newMsg = att.newMsg) → FaultFree membership v e → Delivery.step n v e = some v' →
      (Exact membership v' ∧ ∃ next, v'.attempts[a]? = some next ∧ next.newMsg = att.newMsg) ∧
        World.work membership a v' ≤ World.work membership a v ∧
        (Serves a v e → World.work membership a v' < World.work membership a v) := by
    rintro v e v' ⟨sound, next, present, same⟩ free stepped
    have moved := moves_of_step stepped
    obtain ⟨later, after, le, less⟩ := sound.work_step nodup free moved present
    obtain ⟨other, there, evolved⟩ := attempt_after moved present
    cases after.symm.trans there
    refine ⟨⟨sound.step nodup free moved, later, after, evolved.newMsg.trans same⟩, ?_⟩
    simp only [World.work, present, after]
    exact ⟨le, less⟩
  obtain ⟨-, last, after, message⟩ := run.invariant
    (fun v => Exact membership v ∧ ∃ next, v.attempts[a]? = some next ∧ next.newMsg = att.newMsg)
    (fun before free stepped => (kept before free stepped).1) ⟨sound, att, found, rfl⟩
  have bound := run.measure_stepsOf
    (fun v => Exact membership v ∧ ∃ next, v.attempts[a]? = some next ∧ next.newMsg = att.newMsg)
    (World.work membership a) (fun before free stepped => (kept before free stepped).1)
    (fun before free stepped => (kept before free stepped).2) ⟨sound, att, found, rfl⟩
  simp only [World.work, found, after] at bound
  exact ⟨last, after, message, bound⟩

end Exact

/-- Every call that has returned was accepted, its message is stored once for each
participant under the id that idgen gave, and nothing else is stored. -/
structure StoredOnce (membership : Int → List Int) (w : World) : Prop where
  accepted : ∀ (a : Nat) att outcome, w.attempts[a]? = some att →
    att.stage = .finished outcome → ∃ reply args, outcome = .accepted reply args ∧
      Quotes w.messages att.newMsg.userId att.newMsg.clientTime reply.msgId reply.msgTime ∧
      att.idReply.map MsgIds.userId = participants membership att.newMsg ∧
      (w.messages.filter fun row => row.sender = att.newMsg.userId ∧
        row.clientTime = att.newMsg.clientTime).Perm
          (att.idReply.map (participantRow att.newMsg reply.msgTime))
  participants : ∀ att ∈ w.attempts, (participants membership att.newMsg).Nodup
  belongs : ∀ row ∈ w.messages, ∃ att ∈ w.attempts, ∃ ids ∈ att.idReply,
    row = participantRow att.newMsg row.msgTime ids
  messages : ∀ (a b : Nat) left right, w.attempts[a]? = some left → w.attempts[b]? = some right →
    left.newMsg.userId = right.newMsg.userId →
    left.newMsg.clientTime = right.newMsg.clientTime → a = b

theorem Exact.storedOnce (sound : Exact membership w) (nodup : ∀ g, (membership g).Nodup) :
    StoredOnce membership w where
  accepted a att outcome found finished := by
    obtain ⟨reply, args, rfl⟩ := sound.outcome a att outcome found finished
    have timed := sound.identified.timed att (List.mem_of_getElem? found)
    have quotes := sound.consistent.reply_quotes found (by omega) (by rw [finished]; rfl)
    obtain ⟨users, rows⟩ := sound.accepted_rows nodup found finished
    exact ⟨reply, args, rfl, quotes, users, rows⟩
  participants att member := by
    obtain ⟨a, found⟩ := List.mem_iff_getElem?.mp member
    exact sound.participants_nodup nodup found
  belongs row member := by
    obtain ⟨j, job, att, -, -, owned, -, -, ids, held, rfl⟩ :=
      sound.originates.save sound.consistent member
    exact ⟨att, List.mem_of_getElem? owned, ids, held, rfl⟩
  messages := sound.once

/-- In a fault-free run each message is stored exactly once for each participant, and every call
returns success: whatever the calls do after any moment, a call that takes the number of steps
that it has left has returned success, and until then it can take the next one. -/
theorem fault_free_stores_once (fresh : Fresh w₀) (nodup : ∀ g, (membership g).Nodup)
    (positive : 0 < n) (run : Run (step n) (FaultFree membership) w₀ es w) :
    StoredOnce membership w ∧
    ∀ (a : Nat) att fs v, w.attempts[a]? = some att →
      Run (step n) (FaultFree membership) w fs v →
      (att.work membership (w.saveOf a) ≤ stepsOf (step n) (Serves a) w fs → Succeeded v a) ∧
      (¬ Succeeded v a → InRange n membership v att.newMsg →
        ∃ e v', FaultFree membership v e ∧ Serves a v e ∧ step n v e = some v') := by
  have preserves : ∀ {v e v'}, Exact membership v → FaultFree membership v e →
      step n v e = some v' → Exact membership v' :=
    fun sound free stepped => sound.step nodup free (moves_of_step stepped)
  have sound := run.invariant (Exact membership) preserves (exact_fresh fresh)
  refine ⟨sound.storedOnce nodup, ?_⟩
  intro a att fs v found continued
  have later := continued.invariant (Exact membership) preserves sound
  obtain ⟨last, after, message, bound⟩ := sound.work_run nodup continued found
  constructor
  · intro enough
    exact later.succeeded_of_work after (by omega)
  · intro waiting room
    rw [← message] at room
    exact later.enabled nodup positive after
      (fun outcome finished => waiting ((later.succeeded_iff after).mpr ⟨outcome, finished⟩)) room

/-- A group message and a private one, interleaved. -/
def groupAndPrivate : List Event :=
  [.start ⟨7, 5, .GROUP, "hi".toList, 100, 0⟩, .start ⟨9, 8, .PRIVATE, "ho".toList, 300, 0⟩,
    .redisGet 0 .value, .redisGet 1 .value, .select 0 true, .select 1 true, .lookedUp 0,
    .lookedUp 1, .groupMembers 0 [8, 9], .idGenerate 0 {}, .idGenerate 1 {}, .idGenerate 0 {},
    .idGenerate 1 {}, .idGenerate 0 {}, .idReplied 0 50, .idReplied 1 51, .saveArrives 0,
    .insert 0 .executed, .saveArrives 1, .insert 1 .executed, .insert 0 .executed,
    .insert 0 .executed, .setLastSend 0 true true, .saveReplied 0 0]

theorem fault_free_stores_once_group :
    ∃ w, Run (step 1024) (FaultFree fun _ => [8, 9]) .empty groupAndPrivate w ∧
      w.messages.map (fun row => (row.userId, row.sender, row.msgId)) =
        [(7, 7, 1), (9, 9, 1), (8, 9, 2), (8, 7, 1), (9, 7, 2)] ∧
      StoredOnce (fun _ => [8, 9]) w ∧
      ∃ e v, FaultFree (fun _ => [8, 9]) w e ∧ Serves 1 w e ∧ step 1024 w e = some v := by
  obtain ⟨w, run, checked⟩ := Run.of_check (step 1024)
    (fun w e => decide (FaultFree (fun _ => [8, 9]) w e)) .empty groupAndPrivate
    (fun w => decide (w.messages.map (fun row => (row.userId, row.sender, row.msgId)) =
        [(7, 7, 1), (9, 9, 1), (8, 9, 2), (8, 7, 1), (9, 7, 2)] ∧
      w.attempts[1]?.any (fun att : Attempt => decide (
        att.newMsg = ⟨9, 8, .PRIVATE, "ho".toList, 300, 0⟩ ∧ att.stage.reply? = none)) = true ∧
      ∀ u ∈ [9, 8], 0 ≤ u ∧ lastId w.idgen u + 1 + 1024 < 2 ^ 63))
    (fun _ _ => of_decide_eq_true) (by decide)
  obtain ⟨rows, waiting, room⟩ := of_decide_eq_true checked
  obtain ⟨att, found, waiting⟩ := (Option.any_eq_true ..).mp waiting
  obtain ⟨message, unanswered⟩ := of_decide_eq_true waiting
  obtain ⟨stored, progress⟩ := fault_free_stores_once fresh_empty (fun _ => by decide)
    (show (0 : Int) < 1024 by decide) run
  refine ⟨w, run, rows, stored, (progress 1 att [] w found (.refl w)).2 ?_ ?_⟩
  · rintro ⟨other, present, reply, args, finished⟩
    cases found.symm.trans present
    rw [finished] at unanswered
    cases unanswered
  · rw [message]
    exact room

end Tinyim.Delivery
