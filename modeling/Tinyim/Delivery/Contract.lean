import Tinyim.Delivery.Agreement

/-! The contract of the clients and what it gives in runs that begin with nothing
stored: one message for each client time, and every row from a save of its message. -/
namespace Tinyim.Delivery
open IdGen Dbproxy Logic Transition

/-- Nothing is stored and no id handed out; Redis may hold old records. -/
structure Fresh (w : World) : Prop extends Initial w where
  messages : w.messages = []
  idgen : w.idgen = .init fun _ => none

theorem fresh_empty : Fresh .empty where
  toInitial := initial_empty
  messages := rfl
  idgen := rfl

def Resends (w : World) (m : NewMsg) : Prop := ∃ att ∈ w.attempts, att.newMsg = m

def Acknowledged (w : World) (m : NewMsg) : Prop :=
  ∃ att ∈ w.attempts, att.newMsg = m ∧ att.stage.reply?.isSome

/-- The message is newer than every message of the sender, and these are acknowledged. -/
def SendsNext (w : World) (m : NewMsg) : Prop :=
  ∀ att ∈ w.attempts, att.newMsg.userId = m.userId →
    att.newMsg.clientTime < m.clientTime ∧ Acknowledged w att.newMsg

/-- Client times are positive and strictly increasing, and a message is resent unchanged. -/
def ClientContract (w : World) : Event → Prop
  | .start m => 0 < m.clientTime ∧ (Resends w m ∨ SendsNext w m)
  | _ => True

def ProperPeer : Event → Prop
  | .start m => m.msgType = .PRIVATE → m.peerId ≠ m.userId
  | _ => True

/-- No call fails and idgen keeps running; Redis may lose entries. -/
def Healthy : Event → Prop
  | .redisGet _ reply => reply = .value
  | .select _ executed => executed = true
  | .idGenerate _ disk => disk = {}
  | .insert _ answer => answer = .executed
  | .setLastSend _ executed reported => executed = true ∧ reported = true
  | .rpcFails _ _ | .strayIds _ _ _ | .idgenRestarts => False
  | .start _ | .lookedUp _ | .groupMembers _ _ | .idReplied _ _ | .saveArrives _
  | .saveReplied _ _ | .redisExpires _ => True

/-- The step belongs to attempt `a` or to a save that it has asked for. -/
def Serves (a : Nat) (w : World) : Event → Prop
  | .redisGet b _ | .select b _ | .lookedUp b | .groupMembers b _ | .idGenerate b _
  | .idReplied b _ | .saveArrives b | .saveReplied b _ | .rpcFails b _ => b = a
  | .insert j _ | .setLastSend j _ _ => ∃ job ∈ w.saves[j]?, job.attempt = a
  | .start _ | .strayIds _ _ _ | .idgenRestarts | .redisExpires _ => False

instance : DecidablePred Healthy := fun e => by cases e <;> unfold Healthy <;> infer_instance

instance : Decidable (Serves a w e) := by cases e <;> unfold Serves <;> infer_instance

def Replied (w : World) (a : Nat) (m : NewMsg) (reply : MsgReply) : Prop :=
  ∃ att ∈ w.attempts[a]?, att.newMsg = m ∧ att.stage.reply? = some reply

instance : Decidable (Replied w a m reply) := by unfold Replied; infer_instance

instance : Decidable (Resends w m) := by unfold Resends; infer_instance

instance : Decidable (Acknowledged w m) := by unfold Acknowledged; infer_instance

instance : Decidable (SendsNext w m) := by unfold SendsNext; infer_instance

instance : Decidable (ClientContract w e) := by
  cases e <;> unfold ClientContract <;> infer_instance

instance : Decidable (ProperPeer e) := by cases e <;> unfold ProperPeer <;> infer_instance

instance : Decidable (Lists (Fixed membership) w e) := by
  cases e <;> unfold Lists <;> unfold Fixed <;> infer_instance

structure Identified (w : World) : Prop where
  timed : ∀ att ∈ w.attempts, 0 < att.newMsg.clientTime
  same : ∀ left ∈ w.attempts, ∀ right ∈ w.attempts, left.newMsg.userId = right.newMsg.userId →
    left.newMsg.clientTime = right.newMsg.clientTime → left.newMsg = right.newMsg

def Originates (w : World) : Prop :=
  ∀ row ∈ w.messages, ∃ (j : Nat) (job : SaveJob) (done : List (List Row)),
    w.saves[j]? = some job ∧ job.request.statements = done ++ job.todo ∧ row ∈ done.flatten

variable {listed : Int → List Int → Prop} {n : Int} {w w₀ w' : World} {e : Event}

theorem Advances.serves {v : World} {b : Nat} {att next : Attempt} (adv : Advances v b att e next)
    (serves : Serves a w e) : b = a := by
  cases adv with
  | failed fault => obtain rfl | rfl | ⟨_, rfl⟩ := fault <;> exact serves
  | redisHit | redisMiss | selected | lookedUp | groupMembers | idReplied | saveReplied =>
      exact serves

theorem newMsg_before (moved : Moves n w e w') (member : next ∈ w'.attempts) :
    (∃ m, e = .start m ∧ next.newMsg = m) ∨ ∃ att ∈ w.attempts, next.newMsg = att.newMsg := by
  obtain ⟨a, found⟩ := List.mem_iff_getElem?.mp member
  obtain ⟨m, started, rfl, -⟩ | ⟨att, present, evolved⟩ := attempt_before moved found
  · exact .inl ⟨m, started, rfl⟩
  · exact .inr ⟨att, List.mem_of_getElem? present, evolved.newMsg⟩

theorem Replied.kept (replied : Replied w a m reply) (recalls : Recalls w w') :
    Replied w' a m reply := by
  obtain ⟨att, found, message, success⟩ := replied
  cases stage : att.stage with
  | finished outcome =>
      obtain ⟨next, after, same, finished⟩ := recalls.outcomes a att outcome found stage
      refine ⟨next, after, same.trans message, ?_⟩
      rwa [finished, ← stage]
  | getUserLastSendData | getGroupMembers | idGenerate | save =>
      simp [stage, Stage.reply?] at success

theorem Replied.acknowledged (replied : Replied w a m reply) : Acknowledged w m := by
  obtain ⟨att, found, message, success⟩ := replied
  exact ⟨att, List.mem_of_getElem? found, message, by rw [success]; rfl⟩

theorem Acknowledged.replied (acknowledged : Acknowledged w m) :
    ∃ a reply, Replied w a m reply := by
  obtain ⟨att, member, message, success⟩ := acknowledged
  obtain ⟨a, found⟩ := List.mem_iff_getElem?.mp member
  obtain ⟨reply, success⟩ := Option.isSome_iff_exists.mp success
  exact ⟨a, reply, att, found, message, success⟩

theorem Acknowledged.kept (acknowledged : Acknowledged w m) (recalls : Recalls w w') :
    Acknowledged w' m := by
  obtain ⟨a, reply, replied⟩ := acknowledged.replied
  exact (replied.kept recalls).acknowledged

theorem Identified.initial (initial : Initial w) : Identified w where
  timed att member := by simp [initial.attempts] at member
  same left member := by simp [initial.attempts] at member

theorem Identified.start_same (identified : Identified w)
    (contract : Resends w m ∨ SendsNext w m) (member : att ∈ w.attempts)
    (user : att.newMsg.userId = m.userId) (time : att.newMsg.clientTime = m.clientTime) :
    att.newMsg = m := by
  obtain ⟨earlier, present, rfl⟩ | next := contract
  · exact identified.same att member earlier present user time
  · exact absurd time (next att member user).1.ne

theorem Identified.step (identified : Identified w) (contract : ClientContract w e)
    (moved : Moves n w e w') : Identified w' where
  timed att member := by
    obtain ⟨m, rfl, rfl⟩ | ⟨old, present, same⟩ := newMsg_before moved member
    · exact contract.1
    · rw [same]
      exact identified.timed old present
  same left leftMember right rightMember user time := by
    obtain ⟨m, rfl, rfl⟩ | ⟨old, present, same⟩ := newMsg_before moved leftMember
    · obtain ⟨m, started, rfl⟩ | ⟨old', present', same'⟩ := newMsg_before moved rightMember
      · exact Event.start.inj started
      · rw [same'] at user time ⊢
        exact (identified.start_same contract.2 present' user.symm time.symm).symm
    · rw [same] at user time ⊢
      obtain ⟨m, rfl, rfl⟩ | ⟨old', present', same'⟩ := newMsg_before moved rightMember
      · exact identified.start_same contract.2 present user time
      · rw [same'] at user time ⊢
        exact identified.same old present old' present' user time

theorem originates_of_empty (empty : w.messages = []) : Originates w := by
  intro row member
  rw [empty] at member
  exact absurd member List.not_mem_nil

theorem originates_fresh (fresh : Fresh w) : Originates w := originates_of_empty fresh.messages

theorem Originates.row_kept (originates : Originates w) (moved : Moves n w e w')
    (member : row ∈ w.messages) :
    ∃ (j : Nat) (job : SaveJob) (done : List (List Row)), w'.saves[j]? = some job ∧
      job.request.statements = done ++ job.todo ∧ row ∈ done.flatten := by
  obtain ⟨j, job, done, present, split, inside⟩ := originates row member
  obtain ⟨later, after, proceeded⟩ := save_after moved present
  cases proceeded with
  | kept | stopped | recorded => exact ⟨j, _, done, after, split, inside⟩
  | inserted running next stored unsaved =>
      rename_i rows todo status
      refine ⟨j, _, done ++ [rows], after, by simp [split, next], ?_⟩
      rw [List.flatten_append]
      exact List.mem_append_left _ inside

theorem Originates.step (originates : Originates w) (consistent : Consistent listed w)
    (moved : Moves n w e w') : Originates w' := by
  intro row member
  obtain same | ⟨j, job, rows, todo, status, present, next, stored, after⟩ := messages_after moved
  · rw [same] at member
    exact originates.row_kept moved member
  · rw [(insertStatement_eq_some stored).1, List.mem_append] at member
    obtain old | new := member
    · exact originates.row_kept moved old
    · obtain ⟨done, split, -⟩ := consistent.stored j job present
      refine ⟨j, _, done ++ [rows], after, by simp [split, next], ?_⟩
      rw [List.flatten_append, List.flatten_singleton]
      exact List.mem_append_right _ new

theorem Originates.save (originates : Originates w) (consistent : Consistent listed w)
    (member : row ∈ w.messages) :
    ∃ (j : Nat) (job : SaveJob) (att : Attempt), w.saves[j]? = some job ∧ job.Started ∧
      w.attempts[job.attempt]? = some att ∧ att.request = some job.request ∧
      Built listed att.newMsg att.idReply job.request ∧
      ∃ ids ∈ att.idReply, row = participantRow att.newMsg job.request.msgTime ids := by
  obtain ⟨j, job, done, present, split, inside⟩ := originates row member
  obtain ⟨att, owned, requested, built⟩ := consistent.built present
  have started : job.Started := by
    cases done with
    | nil => exact absurd inside List.not_mem_nil
    | cons first rest =>
        rw [SaveJob.Started, split, List.length_append, List.length_cons]
        omega
  have stated : row ∈ job.request.statements.flatten := by
    rw [split, List.flatten_append]
    exact List.mem_append_left _ inside
  rw [built.rows] at stated
  obtain ⟨ids, served, rfl⟩ := List.mem_map.mp stated
  exact ⟨j, job, att, present, started, owned, requested, built, ids, served, rfl⟩

end Tinyim.Delivery
