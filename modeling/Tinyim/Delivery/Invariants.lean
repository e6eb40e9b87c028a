import Tinyim.Transition
import Tinyim.Logic.Participants
import Tinyim.Delivery.Frame

/-! What holds in every run, whatever fails: an attempt has what its stage needs, a
save has stored what it has executed, and replies quote the sender's own row. -/
namespace Tinyim.Delivery
open IdGen Dbproxy Logic Transition

def Lists (listed : Int → List Int → Prop) (w : World) : Event → Prop
  | .groupMembers a members => ∀ att ∈ w.attempts[a]?, listed att.newMsg.peerId members
  | _ => True

theorem Lists.answer {listed : Int → List Int → Prop} {w : World} {e : Event} {a : Nat}
    {att : Attempt} (lists : Lists listed w e) (found : w.attempts[a]? = some att) :
    ∀ members, e = .groupMembers a members → listed att.newMsg.peerId members := by
  rintro members rfl
  exact lists att found

theorem lists_any (w : World) (e : Event) : Lists (fun _ _ => True) w e := by
  cases e <;> simp [Lists]

def Attempt.Shape (listed : Int → List Int → Prop) (att : Attempt) : Prop :=
  match att.stage with
  | .getUserLastSendData => att.idReply = [] ∧ att.request = none
  | .getGroupMembers => att.newMsg.msgType = .GROUP ∧ att.idReply = [] ∧ att.request = none
  | .idGenerate idRequest => RequestOf listed att.newMsg idRequest ∧ att.request = none ∧
      att.idReply.map MsgIds.userId <+: idRequest.map UserAndIdNum.userId
  | .save _ request => att.request = some request ∧ Built listed att.newMsg att.idReply request
  | .finished outcome =>
      (∀ request, att.request = some request → Built listed att.newMsg att.idReply request) ∧
      ∀ reply args, outcome = .accepted reply args →
        ∃ request, att.request = some request ∧ reply = acceptedReply request

/-- The sender's own row of a message, with the id and the time that a reply quotes. -/
def Quotes (messages : List Row) (userId clientTime msgId msgTime : Int) : Prop :=
  ∃ row ∈ messages, row.key = (userId, userId, clientTime) ∧
    row.msgId = msgId ∧ row.msgTime = msgTime

def SaveJob.Started (job : SaveJob) : Prop := job.todo.length < job.request.statements.length

structure Consistent (listed : Int → List Int → Prop) (w : World) : Prop where
  keys : KeyUnique w.messages
  written : ∀ userId record, w.redis userId = some record → ∃ d, record = recordText d
  shape : ∀ (a : Nat) att, w.attempts[a]? = some att → att.Shape listed
  lookup : ∀ (a : Nat) att data, w.attempts[a]? = some att → att.lookup = .answered data →
    data.clientTime ≠ 0 →
      Quotes w.messages att.newMsg.userId data.clientTime data.msgId data.msgTime
  duplicate : ∀ (a : Nat) att reply, w.attempts[a]? = some att →
    att.stage = .finished (.duplicate reply) → att.newMsg.clientTime ≠ 0 →
      Quotes w.messages att.newMsg.userId att.newMsg.clientTime reply.msgId reply.msgTime
  accepted : ∀ (a : Nat) att reply args, w.attempts[a]? = some att →
    att.stage = .finished (.accepted reply args) →
      ∃ (j : Nat) (job : SaveJob), w.saves[j]? = some job ∧ job.attempt = a ∧ job.status = .saved
  owner : ∀ (j : Nat) job, w.saves[j]? = some job →
    ∃ att, w.attempts[job.attempt]? = some att ∧ att.request = some job.request
  stored : ∀ (j : Nat) job, w.saves[j]? = some job →
    ∃ done, job.request.statements = done ++ job.todo ∧ ∀ row ∈ done.flatten, row ∈ w.messages
  saved : ∀ (j : Nat) job, w.saves[j]? = some job → job.status = .saved → job.todo = []
  single : ∀ (i j : Nat) left right, w.saves[i]? = some left → w.saves[j]? = some right →
    left.Started → right.Started → left.request.sender = right.request.sender →
    left.request.clientTime = right.request.clientTime → i = j

variable {listed : Int → List Int → Prop} {n : Int} {w w' : World} {e : Event} {a j : Nat}
  {att next : Attempt} {job later : SaveJob}

theorem Quotes.grow (quotes : Quotes w.messages userId clientTime msgId msgTime)
    (moved : Moves n w e w') : Quotes w'.messages userId clientTime msgId msgTime := by
  obtain ⟨row, present, facts⟩ := quotes
  exact ⟨row, messages_kept moved present, facts⟩

theorem initial_consistent (initial : Initial w) : Consistent listed w where
  keys := initial.keys
  written := initial.written
  shape a att found := by simp [initial.attempts] at found
  lookup a att _ found := by simp [initial.attempts] at found
  duplicate a att _ found := by simp [initial.attempts] at found
  accepted a att _ _ found := by simp [initial.attempts] at found
  owner j job found := by simp [initial.saves] at found
  stored j job found := by simp [initial.saves] at found
  saved j job found := by simp [initial.saves] at found
  single i j left _ found := by simp [initial.saves] at found

namespace Attempt.Shape

theorem built {request : SaveRequest} (shape : att.Shape listed)
    (requested : att.request = some request) :
    Built listed att.newMsg att.idReply request := by
  cases stage : att.stage with
  | getUserLastSendData => simp [Shape, stage, requested] at shape
  | getGroupMembers => simp [Shape, stage, requested] at shape
  | idGenerate idRequest => simp [Shape, stage, requested] at shape
  | save idRequest other =>
      simp only [Shape, stage, requested, Option.some.injEq] at shape
      obtain ⟨rfl, built⟩ := shape
      exact built
  | finished outcome =>
      simp only [Shape, stage] at shape
      exact shape.1 request requested

theorem failed (shape : att.Shape listed) :
    ({ att with stage := .finished (.failed error) } : Attempt).Shape listed :=
  ⟨fun _ requested => shape.built requested, nofun⟩

theorem advances (shape : att.Shape listed)
    (lists : ∀ members, e = .groupMembers a members → listed att.newMsg.peerId members)
    (adv : Advances w a att e next) : next.Shape listed := by
  cases adv with
  | redisHit stage => simpa only [Shape, stage] using shape
  | redisMiss stage => simpa only [Shape, stage] using shape
  | selected stage => simpa only [Shape, stage] using shape
  | lookedUp stage lookup =>
      rename_i data
      simp only [Shape, stage] at shape
      obtain ⟨none, unasked⟩ := shape
      obtain ⟨-, after⟩ | ⟨-, ⟨kind, after⟩ | ⟨kind, after⟩⟩ :=
        afterGetUserLastSendData_cases att.newMsg data
      · simp [Shape, after, unasked]
      · simp [Shape, after, unasked, none, RequestOf, kind]
      · simp [Shape, after, unasked, none, kind]
  | groupMembers stage =>
      simp only [Shape, stage] at shape
      obtain ⟨kind, none, unasked⟩ := shape
      have member := lists _ rfl
      refine ⟨?_, unasked, by simp [none]⟩
      simp only [RequestOf, kind]
      exact ⟨_, member, rfl⟩
  | idReplied stage complete built =>
      simp only [Shape, stage] at shape
      obtain ⟨asked, -, answers⟩ := shape
      have users := answers.eq_of_length (by simpa using complete)
      refine ⟨rfl, ⟨_, asked, users⟩, ?_⟩
      rw [saveRequest_msgTime built]
      exact built
  | saveReplied stage present asked returned =>
      rename_i idRequest request j job result
      simp only [Shape, stage] at shape
      obtain ⟨requested, built⟩ := shape
      have kept : ∀ other, att.request = some other →
          Built listed att.newMsg att.idReply other := by
        intro other same
        cases requested.symm.trans same
        exact built
      obtain ⟨_, error, -, after⟩ | ⟨-, after⟩ | ⟨-, after⟩ :=
        afterSave_cases att.newMsg idRequest att.idReply request result
      · simpa [Shape, after] using kept
      · simpa [Shape, after] using kept
      · simp only [Shape, after]
        refine ⟨kept, ?_⟩
        intro reply args' same
        cases same
        exact ⟨request, requested, rfl⟩
  | failed => exact shape.failed

theorem evolves (shape : att.Shape listed)
    (lists : ∀ members, e = .groupMembers a members → listed att.newMsg.peerId members)
    (evolved : Evolves n w w' a att e next) : next.Shape listed := by
  cases evolved with
  | kept => exact shape
  | advanced adv => exact shape.advances lists adv
  | identified user =>
      obtain ⟨idRequest, stage, place⟩ := nextUser_eq_some user
      simp only [Shape, stage] at shape ⊢
      obtain ⟨asked, unasked, rest, answers⟩ := shape
      refine ⟨asked, unasked, ?_⟩
      have served := congrArg (·[att.idReply.length]?) answers
      simp only [List.getElem?_map, place, Option.map_some] at served
      rw [List.getElem?_append_right (by simp)] at served
      cases rest with
      | nil => simp at served
      | cons user rest =>
          simp only [List.length_map, Nat.sub_self, List.getElem?_cons_zero,
            Option.some.injEq] at served
          refine ⟨rest, ?_⟩
          rw [← answers, served]
          simp
  | idRefused => exact shape.failed

end Attempt.Shape

/-- A record that the script has written tells the lookup nothing, so an answer with
a time comes from the table. -/
theorem lookup_advances (consistent : Consistent listed w) (found : w.attempts[a]? = some att)
    (adv : Advances w a att e next) (answered : next.lookup = .answered data)
    (timed : data.clientTime ≠ 0) :
    Quotes w.messages att.newMsg.userId data.clientTime data.msgId data.msgTime := by
  cases adv with
  | redisHit stage lookup present =>
      obtain ⟨d, rfl⟩ := consistent.written _ _ present
      cases answered
      exact absurd rfl timed
  | redisMiss => cases answered
  | selected =>
      cases answered
      obtain ⟨-, nothing⟩ | ⟨row, owned, -, newest⟩ :=
        selectLastSend_cases w.messages att.newMsg.userId
      · rw [nothing] at timed
        exact absurd rfl timed
      · rw [newest]
        obtain ⟨present, user, sender⟩ := mem_ownRows.mp owned
        exact ⟨row, present, by simp only [Row.key, user, sender], rfl, rfl⟩
  | lookedUp | groupMembers | idReplied | saveReplied | failed =>
      exact consistent.lookup a att data found answered timed

theorem lookup_evolves (consistent : Consistent listed w) (found : w.attempts[a]? = some att)
    (evolved : Evolves n w w' a att e next) (answered : next.lookup = .answered data)
    (timed : data.clientTime ≠ 0) :
    Quotes w.messages att.newMsg.userId data.clientTime data.msgId data.msgTime := by
  cases evolved with
  | advanced adv => exact lookup_advances consistent found adv answered timed
  | kept | identified | idRefused => exact consistent.lookup a att data found answered timed

theorem duplicate_evolves (evolved : Evolves n w w' a att e next)
    (finished : next.stage = .finished (.duplicate reply)) :
    att.stage = .finished (.duplicate reply) ∨
      ∃ data, att.stage = .getUserLastSendData ∧ att.lookup = .answered data ∧
        data.clientTime = att.newMsg.clientTime ∧
        reply = { msgId := data.msgId, msgTime := data.msgTime } := by
  cases evolved with
  | kept => exact .inl finished
  | advanced adv =>
      cases adv with
      | lookedUp stage lookup =>
          rename_i data
          obtain ⟨same, reply⟩ := duplicate_of_finished finished
          cases reply
          exact .inr ⟨data, stage, lookup, same, rfl⟩
      | saveReplied stage present asked returned =>
          rename_i idRequest request j job result
          obtain ⟨_, after, other⟩ :=
            afterSave_finishes att.newMsg idRequest att.idReply request result
          cases after.symm.trans finished
          exact absurd rfl (other reply)
      | redisHit | redisMiss | selected => exact .inl finished
      | groupMembers | idReplied | failed => cases finished
  | identified => exact .inl finished
  | idRefused => cases finished

theorem accepted_evolves (evolved : Evolves n w w' a att e next)
    (finished : next.stage = .finished (.accepted reply args)) :
    att.stage = .finished (.accepted reply args) ∨
      (∃ (j : Nat) (job : SaveJob), w.saves[j]? = some job ∧ job.attempt = a ∧
        job.status = .saved) ∧
      ∃ idRequest request, att.stage = .save idRequest request ∧
        args = sendtoPeersArgs att.newMsg idRequest att.idReply request.msgTime := by
  cases evolved with
  | kept => exact .inl finished
  | advanced adv =>
      cases adv with
      | lookedUp => cases (duplicate_of_finished finished).2
      | saveReplied stage present asked returned =>
          rename_i idRequest request j job result
          obtain ⟨_, _, -, after⟩ | ⟨-, after⟩ | ⟨rfl, after⟩ :=
            afterSave_cases att.newMsg idRequest att.idReply request result
          · cases after.symm.trans finished
          · cases after.symm.trans finished
          · cases after.symm.trans finished
            refine .inr ⟨⟨j, job, present, asked, ?_⟩, idRequest, request, stage, rfl⟩
            cases status : job.status with
            | saved => rfl
            | running => simp [status, SaveStatus.result?] at returned
            | failed error => simp [status, SaveStatus.result?] at returned
      | redisHit | redisMiss | selected => exact .inl finished
      | groupMembers | idReplied | failed => cases finished
  | identified => exact .inl finished
  | idRefused => cases finished

theorem request_evolves (shape : att.Shape listed) (evolved : Evolves n w w' a att e next)
    (requested : att.request = some request) : next.request = some request := by
  cases evolved with
  | advanced adv =>
      cases adv with
      | idReplied stage => simp [Attempt.Shape, stage, requested] at shape
      | redisHit | redisMiss | selected | lookedUp | groupMembers | saveReplied | failed =>
          exact requested
  | kept | identified | idRefused => exact requested

theorem idReply_evolves (shape : att.Shape listed) (evolved : Evolves n w w' a att e next)
    (requested : att.request = some request) : next.idReply = att.idReply := by
  cases evolved with
  | identified user =>
      obtain ⟨idRequest, stage, -⟩ := nextUser_eq_some user
      simp [Attempt.Shape, stage, requested] at shape
  | advanced adv => cases adv <;> rfl
  | kept | idRefused => rfl

namespace Consistent

theorem built (consistent : Consistent listed w) (found : w.saves[j]? = some job) :
    ∃ att, w.attempts[job.attempt]? = some att ∧ att.request = some job.request ∧
      Built listed att.newMsg att.idReply job.request := by
  obtain ⟨att, present, requested⟩ := consistent.owner j job found
  exact ⟨att, present, requested, (consistent.shape _ att present).built requested⟩

theorem started_quotes (consistent : Consistent listed w) (found : w.saves[j]? = some job)
    (started : job.Started) :
    Quotes w.messages job.request.sender job.request.clientTime job.request.senderMsgId
      job.request.msgTime := by
  obtain ⟨att, -, -, built⟩ := consistent.built found
  obtain ⟨done, split, present⟩ := consistent.stored j job found
  obtain ⟨own, others, -, ownUser, ownId, more, later, statements⟩ := built.first_row
  cases done with
  | nil =>
      rw [SaveJob.Started, split, List.nil_append] at started
      exact absurd started (lt_irrefl _)
  | cons first rest =>
      rw [statements, List.cons_append] at split
      obtain ⟨rfl, -⟩ := List.cons.inj split
      refine ⟨_, present (participantRow att.newMsg job.request.msgTime own) (by simp), ?_,
        ownId, rfl⟩
      simp only [Row.key, participantRow, ownUser, built.sender, built.clientTime]

theorem complete_rows (consistent : Consistent listed w) (found : w.saves[j]? = some job)
    (complete : job.todo = []) :
    ∀ rows ∈ job.request.statements, ∀ row ∈ rows, row ∈ w.messages := by
  obtain ⟨done, split, present⟩ := consistent.stored j job found
  rw [complete, List.append_nil] at split
  intro rows member row inside
  exact present row (List.mem_flatten.mpr ⟨rows, split ▸ member, inside⟩)

theorem complete_started (consistent : Consistent listed w) (found : w.saves[j]? = some job)
    (complete : job.todo = []) : job.Started := by
  obtain ⟨att, -, -, built⟩ := consistent.built found
  obtain ⟨own, others, -, -, -, more, later, statements⟩ := built.first_row
  simp [SaveJob.Started, complete, statements]

end Consistent

/-- A save that has started was started before or has just executed its first
statement, and then no other save has moved. -/
theorem started_before (moved : Moves n w e w') (found : w'.saves[j]? = some later)
    (started : later.Started) :
    (∃ job, w.saves[j]? = some job ∧ job.Started ∧ later.attempt = job.attempt ∧
      later.request = job.request) ∨
    ∃ job rows, w.saves[j]? = some job ∧ ¬ job.Started ∧ later.attempt = job.attempt ∧
      later.request = job.request ∧
      job.todo = rows :: later.todo ∧ insertStatement w.messages rows = some w'.messages ∧
      ∀ i, i ≠ j → w'.saves[i]? = w.saves[i]? := by
  cases moved with
  | saveArrived =>
      obtain ⟨-, rfl⟩ | old := get_push_cases found
      · exact absurd started (lt_irrefl _)
      · exact .inl ⟨later, old, started, rfl, rfl⟩
  | inserted present running next stored after =>
      obtain ⟨rfl, rfl⟩ | ⟨-, old⟩ := get_set_cases found
      · rename_i job rows todo messages answer status
        by_cases before : job.Started
        · exact .inl ⟨job, present, before, rfl, rfl⟩
        · refine .inr ⟨job, rows, present, before, rfl, rfl, next, stored, ?_⟩
          intro i different
          exact List.getElem?_set_ne (Ne.symm different)
      · exact .inl ⟨later, old, started, rfl, rfl⟩
  | insertRefused present =>
      obtain ⟨rfl, rfl⟩ | ⟨-, old⟩ := get_set_cases found
      · exact .inl ⟨_, present, started, rfl, rfl⟩
      · exact .inl ⟨later, old, started, rfl, rfl⟩
  | lastSendSet present running complete =>
      obtain ⟨rfl, rfl⟩ | ⟨-, old⟩ := get_set_cases found
      · exact .inl ⟨_, present, started, rfl, rfl⟩
      · exact .inl ⟨later, old, started, rfl, rfl⟩
  | started | advanced | identified | idRefused | strayed | idgenRestarted
  | redisExpired => exact .inl ⟨later, found, started, rfl, rfl⟩

namespace Consistent

/-- The first statement of a save cannot be executed once the own row is stored. -/
theorem first_statement_fresh (consistent : Consistent listed w)
    (found : w.saves[j]? = some job) (unstarted : ¬ job.Started)
    (todo : job.todo = rows :: rest) (stored : insertStatement w.messages rows = some messages) :
    ¬ Quotes w.messages job.request.sender job.request.clientTime msgId msgTime := by
  rintro ⟨row, present, key, -⟩
  obtain ⟨att, -, -, built⟩ := consistent.built found
  obtain ⟨done, split, -⟩ := consistent.stored j job found
  obtain ⟨own, others, -, ownUser, -, more, later, statements⟩ := built.first_row
  have nothing : done = [] := by
    rw [SaveJob.Started, split, List.length_append] at unstarted
    exact List.length_eq_zero_iff.mp (by omega)
  subst nothing
  rw [statements, List.nil_append, todo] at split
  obtain ⟨rfl, -⟩ := List.cons.inj split
  apply (insertStatement_eq_some stored).2.2 _ List.mem_cons_self
  have same : (participantRow att.newMsg job.request.msgTime own).key = row.key := by
    rw [key]
    simp only [Row.key, participantRow, ownUser, built.sender, built.clientTime]
  rw [same]
  exact List.mem_map_of_mem present

theorem single_step (consistent : Consistent listed w) (moved : Moves n w e w')
    (left : w'.saves[i]? = some first) (right : w'.saves[j]? = some second)
    (leftStarted : first.Started) (rightStarted : second.Started)
    (sender : first.request.sender = second.request.sender)
    (time : first.request.clientTime = second.request.clientTime) : i = j := by
  by_contra different
  obtain ⟨old, present, before, -, same⟩ |
    ⟨new, rows, present, fresh, -, same, todo, stored, elsewhere⟩ :=
      started_before moved left leftStarted
  · have quotes := consistent.started_quotes present before
    rw [← same, sender, time] at quotes
    obtain ⟨old', present', before', -, same'⟩ |
      ⟨new', rows, present', fresh, -, same', todo, stored, -⟩ :=
        started_before moved right rightStarted
    · rw [same, same'] at sender time
      exact different (consistent.single i j old old' present present' before before' sender time)
    · rw [same'] at quotes
      exact consistent.first_statement_fresh present' fresh todo stored quotes
  · rw [elsewhere j (Ne.symm different)] at right
    have quotes := consistent.started_quotes right rightStarted
    rw [← sender, ← time, same] at quotes
    exact consistent.first_statement_fresh present fresh todo stored quotes

theorem stored_step (consistent : Consistent listed w) (moved : Moves n w e w')
    (found : w'.saves[j]? = some later) :
    ∃ done, later.request.statements = done ++ later.todo ∧
      ∀ row ∈ done.flatten, row ∈ w'.messages := by
  obtain ⟨_, _, _, request, -, -, -, rfl, -⟩ | ⟨job, present, proceeded⟩ := save_before moved found
  · exact ⟨[], rfl, nofun⟩
  · obtain ⟨done, split, rowsStored⟩ := consistent.stored j job present
    have kept : ∀ row ∈ done.flatten, row ∈ w'.messages :=
      fun row member => messages_kept moved (rowsStored row member)
    cases proceeded with
    | kept | stopped | recorded => exact ⟨done, split, kept⟩
    | inserted running next inserted unsaved =>
        rename_i rows todo status
        refine ⟨done ++ [rows], by simp [split, next], ?_⟩
        intro row member
        rw [List.flatten_append, List.mem_append, List.flatten_singleton] at member
        obtain member | member := member
        · exact kept row member
        · rw [(insertStatement_eq_some inserted).1]
          exact List.mem_append_right _ member

theorem step (consistent : Consistent listed w) (lists : Lists listed w e)
    (moved : Moves n w e w') : Consistent listed w' where
  keys := by
    obtain same | ⟨_, _, _, _, _, -, -, stored, -⟩ := messages_after moved
    · rw [same]; exact consistent.keys
    · exact (insertStatement_eq_some stored).2.1 consistent.keys
  written userId record found := by
    obtain old | ⟨_, job, -, -, -, rfl⟩ := redis_after moved found
    · exact consistent.written userId record old
    · exact ⟨_, rfl⟩
  shape a att found := by
    obtain ⟨m, -, rfl, -⟩ | ⟨old, present, evolved⟩ := attempt_before moved found
    · exact ⟨rfl, rfl⟩
    · exact (consistent.shape a old present).evolves (lists.answer present) evolved
  lookup a att data found answered timed := by
    obtain ⟨m, -, rfl, -⟩ | ⟨old, present, evolved⟩ := attempt_before moved found
    · cases answered
    · rw [evolved.newMsg]
      exact (lookup_evolves consistent present evolved answered timed).grow moved
  duplicate a att reply found finished timed := by
    obtain ⟨m, -, rfl, -⟩ | ⟨old, present, evolved⟩ := attempt_before moved found
    · cases finished
    · rw [evolved.newMsg] at timed ⊢
      obtain before | ⟨data, -, answered, same, rfl⟩ := duplicate_evolves evolved finished
      · exact (consistent.duplicate a old reply present before timed).grow moved
      · rw [← same] at timed ⊢
        exact (consistent.lookup a old data present answered timed).grow moved
  accepted a att reply args found finished := by
    have saved : ∃ (j : Nat) (job : SaveJob),
        w.saves[j]? = some job ∧ job.attempt = a ∧ job.status = .saved := by
      obtain ⟨m, -, rfl, -⟩ | ⟨old, present, evolved⟩ := attempt_before moved found
      · cases finished
      · obtain before | ⟨saved, -⟩ := accepted_evolves evolved finished
        · exact consistent.accepted a old reply args present before
        · exact saved
    obtain ⟨j, job, present, asked, status⟩ := saved
    obtain ⟨later, after, proceeded⟩ := save_after moved present
    rw [proceeded.returned (by simp [status])] at after
    exact ⟨j, job, after, asked, status⟩
  owner j job found := by
    obtain ⟨a, att, _, request, -, present, stage, rfl, -⟩ | ⟨old, present, proceeded⟩ :=
      save_before moved found
    · have shape := consistent.shape a att present
      simp only [Attempt.Shape, stage] at shape
      obtain ⟨next, after, evolved⟩ := attempt_after moved present
      exact ⟨next, after, request_evolves (consistent.shape a att present) evolved shape.1⟩
    · obtain ⟨att, owned, requested⟩ := consistent.owner j old present
      obtain ⟨next, after, evolved⟩ := attempt_after moved owned
      rw [proceeded.fixed.1, proceeded.fixed.2]
      exact ⟨next, after, request_evolves (consistent.shape _ att owned) evolved requested⟩
  stored j job found := consistent.stored_step moved found
  saved j job found status := by
    obtain ⟨_, _, _, _, -, -, -, rfl, -⟩ | ⟨old, present, proceeded⟩ := save_before moved found
    · cases status
    · cases proceeded with
      | kept => exact consistent.saved j job present status
      | inserted running next stored unsaved => exact absurd status unsaved
      | stopped => cases status
      | recorded running complete => exact complete
  single i j left right leftFound rightFound := consistent.single_step moved leftFound rightFound

end Consistent

theorem run_consistent {allowed : World → Event → Prop}
    (lists : ∀ w e, allowed w e → Lists listed w e)
    (run : Run (step n) allowed w es w') (consistent : Consistent listed w) :
    Consistent listed w' :=
  run.invariant (Consistent listed) (fun before admitted stepped =>
    before.step (lists _ _ admitted) (moves_of_step stepped)) consistent

theorem run_along {allowed : World → Event → Prop} (P : World → Prop)
    (preserves : ∀ {w e w'}, Consistent (fun _ _ => True) w → P w → allowed w e →
      Moves n w e w' → P w')
    (run : Run (step n) allowed w es w') (consistent : Consistent (fun _ _ => True) w)
    (holds : P w) : Consistent (fun _ _ => True) w' ∧ P w' :=
  run.invariant (fun w => Consistent (fun _ _ => True) w ∧ P w)
    (fun ⟨before, kept⟩ admitted stepped =>
      have moved := moves_of_step stepped
      ⟨before.step (lists_any _ _) moved, preserves before kept admitted moved⟩)
    ⟨consistent, holds⟩

theorem consistent_of_run {allowed : World → Event → Prop} (initial : Initial w)
    (run : Run (step n) allowed w es w') : Consistent (fun _ _ => True) w' :=
  run_consistent (fun w e _ => lists_any w e) run (initial_consistent initial)

end Tinyim.Delivery
