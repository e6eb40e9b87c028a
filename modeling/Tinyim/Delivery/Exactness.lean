import Tinyim.Delivery.Numbering

/-! Runs in which nothing fails and clients send one message after the other. The
lookup never matches, no save conflicts, and each participant gets one row. -/
namespace Tinyim.Delivery
open IdGen Dbproxy Logic Transition

/-- Every message is sent once and every save request arrives once. -/
def Single (w : World) : Event → Prop
  | .start m => 0 < m.clientTime ∧ SendsNext w m
  | .saveArrives a => ∀ job ∈ w.saves, job.attempt ≠ a
  | _ => True

def FaultFree (membership : Int → List Int) (w : World) (e : Event) : Prop :=
  Healthy e ∧ Single w e ∧ ProperPeer e ∧ Lists (Fixed membership) w e

instance (w : World) : DecidablePred (Single w)
  | .start m => inferInstanceAs (Decidable (0 < m.clientTime ∧ SendsNext w m))
  | .saveArrives a => inferInstanceAs (Decidable (∀ job ∈ w.saves, job.attempt ≠ a))
  | .redisGet .. | .select .. | .lookedUp _ | .groupMembers .. | .idGenerate .. | .idReplied ..
  | .insert .. | .setLastSend .. | .saveReplied .. | .rpcFails .. | .strayIds ..
  | .idgenRestarts | .redisExpires _ => inferInstanceAs (Decidable True)

instance : Decidable (FaultFree membership w e) := by unfold FaultFree; infer_instance

structure Exact (membership : Int → List Int) (w : World) : Prop where
  consistent : Consistent (Fixed membership) w
  identified : Identified w
  originates : Originates w
  numbered : Numbered w
  once : ∀ (a b : Nat) left right, w.attempts[a]? = some left → w.attempts[b]? = some right →
    left.newMsg.userId = right.newMsg.userId →
    left.newMsg.clientTime = right.newMsg.clientTime → a = b
  proper : ∀ att ∈ w.attempts, att.newMsg.msgType = .PRIVATE →
    att.newMsg.peerId ≠ att.newMsg.userId
  positive : ∀ (a : Nat) att, w.attempts[a]? = some att → ∀ ids ∈ att.idReply, 0 < ids.startMsgId
  unmatched : ∀ (a : Nat) att data, w.attempts[a]? = some att →
    att.stage = .getUserLastSendData → att.lookup = .answered data →
      data.clientTime ≠ att.newMsg.clientTime
  outcome : ∀ (a : Nat) att outcome, w.attempts[a]? = some att → att.stage = .finished outcome →
    ∃ reply args, outcome = .accepted reply args
  saving : ∀ (j : Nat) job, w.saves[j]? = some job → ∀ error, job.status ≠ .failed error
  oneSave : ∀ (i j : Nat) left right, w.saves[i]? = some left → w.saves[j]? = some right →
    left.attempt = right.attempt → i = j

variable {membership : Int → List Int} {n : Int} {w w₀ w' : World} {e : Event} {a j : Nat}
  {att next : Attempt} {job later : SaveJob}

theorem Single.contract (single : Single w e) : ClientContract w e := by
  cases e with
  | start m => exact ⟨single.1, .inr single.2⟩
  | redisGet | select | lookedUp | groupMembers | idGenerate | idReplied | saveArrives | insert
  | setLastSend | saveReplied | rpcFails | strayIds | idgenRestarts | redisExpires => trivial

theorem Healthy.keepsIds (healthy : Healthy e) : KeepsIds e := by
  cases e with
  | strayIds => exact healthy.elim
  | idgenRestarts => exact healthy
  | start | redisGet | select | lookedUp | groupMembers | idGenerate | idReplied | saveArrives
  | insert | setLastSend | saveReplied | rpcFails | redisExpires => trivial

theorem exact_fresh (fresh : Fresh w) : Exact membership w where
  consistent := initial_consistent fresh.toInitial
  identified := .initial fresh.toInitial
  originates := originates_fresh fresh
  numbered := numbered_fresh fresh
  once a b left right found := by simp [fresh.attempts] at found
  proper att member := by simp [fresh.attempts] at member
  positive a att found := by simp [fresh.attempts] at found
  unmatched a att data found := by simp [fresh.attempts] at found
  outcome a att outcome found := by simp [fresh.attempts] at found
  saving j job found := by simp [fresh.saves] at found
  oneSave i j left right found := by simp [fresh.saves] at found

theorem served_not_refused
    (served : IdGen.idGenerate n {} userId need s = some (.error reason, s')) : False := by
  obtain ⟨_, refused | refused, -⟩ | ⟨absurd, -⟩ := idGenerate_cases served
  · cases refused
  · cases refused
  · cases absurd

namespace Exact

theorem participants_nodup (sound : Exact membership w)
    (nodup : ∀ g, (membership g).Nodup) (found : w.attempts[a]? = some att) :
    (participants membership att.newMsg).Nodup := by
  cases kind : att.newMsg.msgType with
  | PRIVATE =>
      have different := sound.proper att (List.mem_of_getElem? found) kind
      simpa [participants, kind] using different.symm
  | GROUP =>
      simp only [participants, kind, List.nodup_cons]
      refine ⟨?_, (nodup _).filter _⟩
      intro member
      have different := (List.mem_filter.mp member).2
      simp at different

theorem statements_keyUnique (sound : Exact membership w) (nodup : ∀ g, (membership g).Nodup)
    (found : w.saves[j]? = some job) : KeyUnique job.request.statements.flatten := by
  obtain ⟨att, owned, -, built⟩ := sound.consistent.built found
  have users := sound.participants_nodup nodup owned
  rw [← built.participants] at users
  rw [KeyUnique, built.rows, List.map_map]
  apply List.Nodup.of_map Prod.fst
  rw [List.map_map]
  exact users

theorem row_save (sound : Exact membership w) (found : w.saves[j]? = some job)
    (member : row ∈ w.messages) (sender : row.sender = job.request.sender)
    (time : row.clientTime = job.request.clientTime) :
    ∃ done, job.request.statements = done ++ job.todo ∧ row ∈ done.flatten := by
  obtain ⟨i, other, done, present, split, inside⟩ := sound.originates row member
  obtain ⟨att, owned, -, built⟩ := sound.consistent.built found
  obtain ⟨att', owned', -, built'⟩ := sound.consistent.built present
  have stated : row ∈ other.request.statements.flatten := by
    rw [split, List.flatten_append]
    exact List.mem_append_left _ inside
  rw [built'.rows] at stated
  obtain ⟨ids, -, rfl⟩ := List.mem_map.mp stated
  have attempt := sound.once other.attempt job.attempt att' att owned' owned
    (sender.trans built.sender) (time.trans built.clientTime)
  have same := sound.oneSave i j other job present found attempt
  subst same
  cases present.symm.trans found
  exact ⟨done, split, inside⟩

/-- The next statement of a save never violates the key. -/
theorem no_conflict (sound : Exact membership w) (nodup : ∀ g, (membership g).Nodup)
    (found : w.saves[j]? = some job) (next : job.todo = rows :: todo) :
    insertStatement w.messages rows = some (w.messages ++ rows) := by
  obtain ⟨done, split, -⟩ := sound.consistent.stored j job found
  have unique := sound.statements_keyUnique nodup found
  obtain ⟨att, owned, -, built⟩ := sound.consistent.built found
  rw [split, next, KeyUnique, List.flatten_append, List.flatten_cons, List.map_append,
    List.map_append, List.nodup_append] at unique
  obtain ⟨-, ahead, apart⟩ := unique
  apply insertStatement_of_keyUnique
  rw [KeyUnique, List.map_append, List.nodup_append]
  refine ⟨sound.consistent.keys, (List.nodup_append.mp ahead).1, ?_⟩
  rintro _ before _ new rfl
  obtain ⟨row, member, same⟩ := List.mem_map.mp before
  obtain ⟨fresh, inside, key⟩ := List.mem_map.mp new
  have stated : fresh ∈ job.request.statements.flatten := by
    rw [split, next, List.flatten_append, List.flatten_cons]
    exact List.mem_append_right _ (List.mem_append_left _ inside)
  rw [built.rows] at stated
  obtain ⟨ids, -, rfl⟩ := List.mem_map.mp stated
  have keys := same.trans key.symm
  simp only [Row.key, participantRow, Prod.mk.injEq] at keys
  obtain ⟨done', split', inside'⟩ := sound.row_save found member
    (keys.2.1.trans built.sender.symm) (keys.2.2.trans built.clientTime.symm)
  rw [split] at split'
  cases List.append_cancel_right split'
  exact apart _ (List.mem_map_of_mem inside') _ (List.mem_append_left _ new) same

theorem once_step (sound : Exact membership w) (single : Single w e) (moved : Moves n w e w')
    (left : w'.attempts[a]? = some first) (right : w'.attempts[b]? = some second)
    (user : first.newMsg.userId = second.newMsg.userId)
    (time : first.newMsg.clientTime = second.newMsg.clientTime) : a = b := by
  have newest : ∀ {m att}, e = .start m → att ∈ w.attempts → att.newMsg.userId = m.userId →
      att.newMsg.clientTime ≠ m.clientTime := by
    rintro m att rfl member user
    exact (single.2 att member user).1.ne
  obtain ⟨m, started, rfl, last⟩ | ⟨old, present, evolved⟩ := attempt_before moved left
  · obtain ⟨m', started', rfl, last'⟩ | ⟨old', present', evolved'⟩ := attempt_before moved right
    · rw [last, last']
    · rw [evolved'.newMsg] at user time
      exact absurd time.symm (newest started (List.mem_of_getElem? present') user.symm)
  · rw [evolved.newMsg] at user time
    obtain ⟨m', started', rfl, -⟩ | ⟨old', present', evolved'⟩ := attempt_before moved right
    · exact absurd time (newest started' (List.mem_of_getElem? present) user)
    · rw [evolved'.newMsg] at user time
      exact sound.once a b old old' present present' user time

theorem proper_step (sound : Exact membership w) (proper : ProperPeer e) (moved : Moves n w e w')
    (member : next ∈ w'.attempts) (kind : next.newMsg.msgType = .PRIVATE) :
    next.newMsg.peerId ≠ next.newMsg.userId := by
  obtain ⟨m, rfl, rfl⟩ | ⟨old, present, same⟩ := newMsg_before moved member
  · exact proper kind
  · rw [same] at kind ⊢
    exact sound.proper old present kind

theorem positive_step (sound : Exact membership w) (moved : Moves n w e w')
    (found : w'.attempts[a]? = some next) (held : ids ∈ next.idReply) : 0 < ids.startMsgId := by
  obtain ⟨att, present, -, before⟩ | ⟨_, -, fresh, -⟩ :=
    sound.numbered.id_before sound.consistent moved found held
  · exact sound.positive a att present ids before
  · have nonneg := sound.numbered.nonneg ids.userId
    omega

theorem unstored (sound : Exact membership w) (found : w.attempts[a]? = some att)
    (unrequested : att.request = none) (member : row ∈ w.messages)
    (sender : row.sender = att.newMsg.userId) : row.clientTime ≠ att.newMsg.clientTime := by
  intro time
  obtain ⟨j, job, owner, -, -, owned, requested, built, ids, -, rfl⟩ :=
    sound.originates.save sound.consistent member
  have same := sound.once job.attempt a owner att owned found sender time
  subst same
  cases owned.symm.trans found
  rw [unrequested] at requested
  cases requested

theorem unmatched_step (sound : Exact membership w) (moved : Moves n w e w')
    (found : w'.attempts[a]? = some next) (stage : next.stage = .getUserLastSendData)
    (answered : next.lookup = .answered data) : data.clientTime ≠ next.newMsg.clientTime := by
  obtain ⟨m, -, rfl, -⟩ | ⟨att, present, evolved⟩ := attempt_before moved found
  · cases answered
  · have timed := sound.identified.timed att (List.mem_of_getElem? present)
    cases evolved with
    | kept => exact sound.unmatched a _ data present stage answered
    | identified => exact sound.unmatched a att data present stage answered
    | idRefused => cases stage
    | advanced adv =>
        cases adv with
        | redisHit waiting lookup record =>
            obtain ⟨d, rfl⟩ := sound.consistent.written _ _ record
            cases answered
            exact timed.ne
        | redisMiss => cases answered
        | selected waiting =>
            cases answered
            obtain ⟨-, nothing⟩ | ⟨row, owned, -, newest⟩ :=
              selectLastSend_cases w.messages att.newMsg.userId
            · rw [nothing]
              exact timed.ne
            · rw [newest]
              obtain ⟨member, -, sender⟩ := mem_ownRows.mp owned
              have shape := sound.consistent.shape a att present
              simp only [Attempt.Shape, waiting] at shape
              have different := sound.unstored present shape.2 member sender
              exact different
        | lookedUp => exact absurd stage (afterGetUserLastSendData_ne _ _)
        | saveReplied =>
            rename_i idRequest request j job result _ _ _ _
            obtain ⟨_, after, -⟩ :=
              afterSave_finishes att.newMsg idRequest att.idReply request result
            cases after.symm.trans stage
        | groupMembers | idReplied | failed => cases stage

theorem saved_accepts (sound : Exact membership w) (found : w.attempts[a]? = some att)
    (stage : att.stage = .save idRequest request) (present : w.saves[j]? = some job)
    (returned : job.status.result? = some result) :
    ∃ args, afterSave att.newMsg idRequest att.idReply request result =
      .finished (.accepted (acceptedReply request) args) := by
  obtain ⟨error, _, rfl, -⟩ | ⟨zero, -⟩ | ⟨-, after⟩ :=
    afterSave_cases att.newMsg idRequest att.idReply request result
  · have unfailed := sound.saving j job present
    cases status : job.status with
    | running => rw [status] at returned; cases returned
    | saved => rw [status] at returned; cases returned
    | failed error => exact absurd status (unfailed error)
  · have shape := sound.consistent.shape a att found
    simp only [Attempt.Shape, stage] at shape
    obtain ⟨own, others, reply, -, same, -⟩ := shape.2.first_row
    have above := sound.positive a att found own (by simp [reply])
    omega
  · exact ⟨_, after⟩

theorem outcome_step {outcome : Outcome} (sound : Exact membership w) (healthy : Healthy e)
    (moved : Moves n w e w')
    (found : w'.attempts[a]? = some next) (finished : next.stage = .finished outcome) :
    ∃ reply args, outcome = .accepted reply args := by
  obtain ⟨m, -, rfl, -⟩ | ⟨att, present, evolved⟩ := attempt_before moved found
  · cases finished
  · cases evolved with
    | kept => exact sound.outcome a _ outcome present finished
    | identified => exact sound.outcome a att outcome present finished
    | idRefused user served =>
        cases healthy
        exact (served_not_refused served).elim
    | advanced adv =>
        cases adv with
        | redisHit | redisMiss | selected => exact sound.outcome a att outcome present finished
        | lookedUp stage lookup =>
            rename_i data
            have different := sound.unmatched a att data present stage lookup
            exact absurd (duplicate_of_finished finished).1 different
        | groupMembers | idReplied => cases finished
        | saveReplied stage kept asked returned =>
            obtain ⟨args, after⟩ := sound.saved_accepts present stage kept returned
            cases after.symm.trans finished
            exact ⟨_, args, rfl⟩
        | failed fault =>
            obtain rfl | rfl | ⟨_, rfl⟩ := fault
            · cases healthy
            · cases healthy
            · exact healthy.elim

theorem saving_step (sound : Exact membership w) (nodup : ∀ g, (membership g).Nodup)
    (healthy : Healthy e) (moved : Moves n w e w') (found : w'.saves[j]? = some later)
    (error : RpcError) : later.status ≠ .failed error := by
  cases moved with
  | saveArrived =>
      obtain ⟨-, rfl⟩ | old := get_push_cases found
      · exact SaveStatus.noConfusion
      · exact sound.saving j later old error
  | inserted present running next stored after =>
      obtain ⟨rfl, rfl⟩ | ⟨-, old⟩ := get_set_cases found
      · obtain ⟨-, rfl⟩ | ⟨rfl, -⟩ := after
        · exact SaveStatus.noConfusion
        · cases healthy
      · exact sound.saving j later old error
  | insertRefused present running next cause =>
      obtain rfl | conflict := cause
      · cases healthy
      · rw [sound.no_conflict nodup present next] at conflict
        cases conflict
  | lastSendSet present running complete =>
      obtain ⟨rfl, rfl⟩ | ⟨-, old⟩ := get_set_cases found
      · obtain ⟨-, rfl⟩ := healthy
        exact SaveStatus.noConfusion
      · exact sound.saving j later old error
  | started | advanced | identified | idRefused | strayed | idgenRestarted
  | redisExpired => exact sound.saving j later found error

theorem oneSave_step (sound : Exact membership w) (single : Single w e) (moved : Moves n w e w')
    (left : w'.saves[i]? = some first) (right : w'.saves[j]? = some second)
    (attempt : first.attempt = second.attempt) : i = j := by
  obtain ⟨a, _, _, _, rfl, -, -, rfl, last⟩ | ⟨old, present, proceeded⟩ := save_before moved left
  · obtain ⟨_, _, _, _, -, -, -, -, last'⟩ | ⟨old', present', proceeded'⟩ :=
      save_before moved right
    · rw [last, last']
    · rw [proceeded'.fixed.1] at attempt
      exact absurd attempt.symm (single old' (List.mem_of_getElem? present'))
  · rw [proceeded.fixed.1] at attempt
    obtain ⟨a, _, _, _, rfl, -, -, rfl, -⟩ | ⟨old', present', proceeded'⟩ :=
      save_before moved right
    · exact absurd attempt (single old (List.mem_of_getElem? present))
    · rw [proceeded'.fixed.1] at attempt
      exact sound.oneSave i j old old' present present' attempt

theorem step (sound : Exact membership w) (nodup : ∀ g, (membership g).Nodup)
    (free : FaultFree membership w e) (moved : Moves n w e w') : Exact membership w' := by
  obtain ⟨healthy, single, proper, lists⟩ := free
  exact {
    consistent := sound.consistent.step lists moved
    identified := sound.identified.step single.contract moved
    originates := sound.originates.step sound.consistent moved
    numbered := sound.numbered.step sound.consistent
      (sound.numbered.lastId_le sound.consistent healthy.keepsIds moved) moved
    once := fun a b left right => sound.once_step single moved
    proper := fun att => sound.proper_step proper moved
    positive := fun a att found ids => sound.positive_step moved found
    unmatched := fun a att data => sound.unmatched_step moved
    outcome := fun a att outcome => sound.outcome_step healthy moved
    saving := fun j job => sound.saving_step nodup healthy moved
    oneSave := fun i j left right => sound.oneSave_step single moved }

theorem accepted_rows (sound : Exact membership w) (nodup : ∀ g, (membership g).Nodup)
    (found : w.attempts[a]? = some att) (finished : att.stage = .finished (.accepted reply args)) :
    att.idReply.map MsgIds.userId = participants membership att.newMsg ∧
    (w.messages.filter fun row => row.sender = att.newMsg.userId ∧
      row.clientTime = att.newMsg.clientTime).Perm
        (att.idReply.map (participantRow att.newMsg reply.msgTime)) := by
  obtain ⟨j, job, present, attempt, status, -, sender, time, rfl⟩ :=
    sound.consistent.accepted_save found finished
  obtain ⟨owner, owned, -, built⟩ := sound.consistent.built present
  rw [attempt] at owned
  cases found.symm.trans owned
  have complete := sound.consistent.saved j job present status
  refine ⟨built.participants, ?_⟩
  have rows : att.idReply.map (participantRow att.newMsg (acceptedReply job.request).msgTime) =
      job.request.statements.flatten := built.rows.symm
  rw [rows]
  have stored := List.Nodup.of_map _ sound.consistent.keys
  have stated := List.Nodup.of_map _ (sound.statements_keyUnique nodup present)
  apply (List.perm_ext_iff_of_nodup (stored.filter _) stated).mpr
  intro row
  constructor
  · intro member
    obtain ⟨member, matched⟩ := List.mem_filter.mp member
    obtain ⟨sender', time'⟩ := of_decide_eq_true matched
    obtain ⟨done, split, inside⟩ := sound.row_save present member (sender'.trans sender.symm)
      (time'.trans time.symm)
    rw [split, complete, List.append_nil]
    exact inside
  · intro member
    obtain ⟨statement, listed, inside⟩ := List.mem_flatten.mp member
    refine List.mem_filter.mpr
      ⟨sound.consistent.complete_rows present complete statement listed row inside, ?_⟩
    rw [built.rows] at member
    obtain ⟨ids, -, rfl⟩ := List.mem_map.mp member
    exact decide_eq_true ⟨rfl, rfl⟩

end Exact
end Tinyim.Delivery
