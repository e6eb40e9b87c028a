import Tinyim.Delivery.Exactness
import Tinyim.Delivery.IdReplies
import Tinyim.Delivery.Retry

/-! What is left to do after faults. Whatever earlier attempts have left behind, a new attempt
for the newest message of its sender gets its reply once it runs alone, nothing fails and the
sender's record has expired. -/
namespace Tinyim.Delivery
open IdGen Dbproxy Logic Transition

/-- The steps of attempt `a`, none of which fails. -/
def Alone (membership : Int → List Int) (a : Nat) (v : World) (e : Event) : Prop :=
  Healthy e ∧ Serves a v e ∧ Lists (Fixed membership) v e

def World.joined (w : World) (att : Attempt) : World :=
  { w with attempts := w.attempts ++ [att] }

variable {membership : Int → List Int} {n : Int} {w : World} {att : Attempt} {m : NewMsg}

theorem lookup_run (expired : w.redis m.userId = none) :
    ∃ es, Run (step n) (Alone membership w.attempts.length) (w.joined { newMsg := m }) es
      (w.joined {
        newMsg := m
        lookup := .answered (selectLastSend w.messages m.userId)
        stage := afterGetUserLastSendData m (.ok (selectLastSend w.messages m.userId)) }) := by
  have missed : step n (w.joined { newMsg := m }) (.redisGet w.attempts.length .value) =
      some (w.joined { newMsg := m, lookup := .mysql }) := by
    apply advance_last
    simp only [Attempt.redisGet, World.joined, expired]
  have queried : step n (w.joined { newMsg := m, lookup := .mysql })
      (.select w.attempts.length true) = some (w.joined
        { newMsg := m, lookup := .answered (selectLastSend w.messages m.userId) }) := by
    apply advance_last
    simp only [Attempt.select, World.joined, if_true]
  refine ⟨[.redisGet w.attempts.length .value, .select w.attempts.length true,
    .lookedUp w.attempts.length], ?_⟩
  refine .next ⟨rfl, rfl, trivial⟩ missed (.next ⟨rfl, rfl, trivial⟩ queried ?_)
  exact .next ⟨trivial, rfl, trivial⟩ (advance_last rfl) (.refl _)

theorem identify_step (positive : 0 < n) (w : World) (att : Attempt) {user : UserAndIdNum}
    (asks : att.nextUser = some user) (single : user.needMsgidNum = 1) (own : 0 ≤ user.userId)
    (nonneg : ∀ v, 0 ≤ lastId w.idgen v) (room : lastId w.idgen user.userId + 1 + n < 2 ^ 63) :
    ∃ idgen entry, step n (w.joined att) (.idGenerate w.attempts.length {}) =
        some (World.joined { w with idgen } { att with idReply := att.idReply ++ [entry] }) ∧
      entry.userId = user.userId ∧ 0 < entry.startMsgId ∧ (∀ v, 0 ≤ lastId idgen v) ∧
      ∀ v, v ≠ user.userId → lastId idgen v = lastId w.idgen v := by
  obtain ⟨⟨result, idgen⟩, called⟩ : ∃ result,
      IdGen.idGenerate n {} user.userId user.needMsgidNum w.idgen = some result := by
    rw [single]
    exact idGenerate_defined own positive le_rfl (nonneg _) room
  have before := nonneg user.userId
  cases result with
  | error reason => exact (served_not_refused called).elim
  | ok startId =>
      obtain ⟨start, counters⟩ := lastId_served before (by rw [single]) called
      refine ⟨idgen, ⟨user.userId, startId, user.needMsgidNum⟩, ?_, rfl, ?_, ?_, ?_⟩
      · simp only [step, World.idGenerate, World.joined, List.getElem?_concat_length, asks, called,
          Option.bind_eq_bind, Option.bind_some, Option.pure_def, World.setAttempt, set_last,
          Attempt.identified]
      · change 0 < startId
        omega
      · intro v
        rw [counters, Function.update_apply]
        split
        · omega
        · exact nonneg v
      · intro v other
        rw [counters, Function.update_of_ne other]

theorem generate_run (positive : 0 < n) (w : World) (att : Attempt) (front back : List UserAndIdNum)
    (stage : att.stage = .idGenerate (front ++ back))
    (place : att.idReply.length = front.length)
    (distinct : (back.map UserAndIdNum.userId).Nodup)
    (single : ∀ user ∈ back, user.needMsgidNum = 1) (nonneg : ∀ v, 0 ≤ lastId w.idgen v)
    (room : ∀ user ∈ back, 0 ≤ user.userId ∧ lastId w.idgen user.userId + 1 + n < 2 ^ 63) :
    ∃ es idgen ids, Run (step n) (Alone membership w.attempts.length) (w.joined att) es
        (World.joined { w with idgen } { att with idReply := att.idReply ++ ids }) ∧
      ids.map MsgIds.userId = back.map UserAndIdNum.userId ∧
      ∀ entry ∈ ids, 0 < entry.startMsgId := by
  induction back generalizing w att front with
  | nil =>
      refine ⟨[], w.idgen, [], ?_, rfl, nofun⟩
      rw [List.append_nil]
      exact .refl _
  | cons user back ih =>
      obtain ⟨own, bound⟩ := room user List.mem_cons_self
      have asks : att.nextUser = some user := by
        simp [Attempt.nextUser, stage, place]
      obtain ⟨idgen, entry, stepped, same, started, nonneg', kept⟩ :=
        identify_step positive w att asks (single user List.mem_cons_self) own nonneg bound
      obtain ⟨different, distinct⟩ := List.nodup_cons.mp distinct
      have room' : ∀ other ∈ back,
          0 ≤ other.userId ∧ lastId idgen other.userId + 1 + n < 2 ^ 63 := by
        intro other member
        have apart : other.userId ≠ user.userId := by
          intro equal
          exact different (equal ▸ List.mem_map_of_mem member)
        rw [kept _ apart]
        exact room other (List.mem_cons_of_mem _ member)
      obtain ⟨es, idgen', ids, run, users, later⟩ := ih { w with idgen }
        { att with idReply := att.idReply ++ [entry] } (front ++ [user]) (by simp [stage])
        (by simp [place]) distinct
        (fun other member => single other (List.mem_cons_of_mem _ member)) nonneg' room'
      refine ⟨.idGenerate w.attempts.length {} :: es, idgen', entry :: ids,
        .next ⟨rfl, rfl, trivial⟩ stepped ?_, by rw [List.map_cons, users, same]; rfl, ?_⟩
      · rw [List.append_assoc] at run
        exact run
      · intro other member
        obtain rfl | member := List.mem_cons.mp member
        · exact started
        · exact later other member

theorem insert_run (w : World) (saves : List SaveJob) (job : SaveJob) (todo : List (List Row))
    (running : job.status = .running) (unique : KeyUnique (w.messages ++ todo.flatten)) :
    ∃ es, Run (step n) (Alone membership job.attempt)
      { w with saves := saves ++ [{ job with todo }] } es
      { w with
        messages := w.messages ++ todo.flatten
        saves := saves ++ [{ job with todo := [] }] } := by
  induction todo generalizing w with
  | nil =>
      refine ⟨[], ?_⟩
      rw [List.flatten_nil, List.append_nil]
      exact .refl _
  | cons rows todo ih =>
      rw [List.flatten_cons, ← List.append_assoc] at unique
      have fits : insertStatement w.messages rows = some (w.messages ++ rows) := by
        apply insertStatement_of_keyUnique
        rw [KeyUnique, List.map_append] at unique
        exact (List.nodup_append.mp unique).1
      have stepped : step n { w with saves := saves ++ [{ job with todo := rows :: todo }] }
          (.insert saves.length .executed) = some { w with
            messages := w.messages ++ rows, saves := saves ++ [{ job with todo }] } := by
        simp only [step, World.insert, List.getElem?_concat_length, running, fits,
          Option.bind_eq_bind, Option.bind_some, Option.pure_def, World.setSave, set_last]
      have serves : Serves job.attempt
          { w with saves := saves ++ [{ job with todo := rows :: todo }] }
          (.insert saves.length .executed) :=
        ⟨{ job with todo := rows :: todo }, List.getElem?_concat_length, rfl⟩
      obtain ⟨es, run⟩ := ih { w with messages := w.messages ++ rows } unique
      refine ⟨.insert saves.length .executed :: es, .next ⟨rfl, serves, trivial⟩ stepped ?_⟩
      rw [List.flatten_cons, ← List.append_assoc]
      exact run

theorem stored_run (w : World) (att : Attempt) {r : SaveRequest}
    (stage : att.stage = .save idRequest r)
    (unique : KeyUnique (w.messages ++ r.statements.flatten)) :
    ∃ es v, Run (step n) (Alone membership w.attempts.length) (w.joined att) es v ∧
      v.attempts = w.attempts ++ [{ att with
        stage := afterSave att.newMsg idRequest att.idReply r (.ok ()) }] := by
  let job : SaveJob := { attempt := w.attempts.length, request := r, todo := r.statements }
  have arrived : step n (w.joined att) (.saveArrives w.attempts.length) =
      some { w.joined att with saves := w.saves ++ [job] } := by
    simp only [step, World.saveArrives, World.joined, List.getElem?_concat_length, stage,
      Option.bind_eq_bind, Option.bind_some, Option.pure_def]
    rfl
  let inserted : World := { w.joined att with
    messages := w.messages ++ r.statements.flatten
    saves := w.saves ++ [{ job with todo := [] }] }
  let recorded : World := { inserted with
    redis := Function.update w.redis r.sender (setUserLastSendData (w.redis r.sender) r.lastSend)
    saves := w.saves ++ [{ job with todo := [], status := .saved }] }
  let replied : World := { recorded with
    attempts := w.attempts ++ [{ att with
      stage := afterSave att.newMsg idRequest att.idReply r (.ok ()) }] }
  obtain ⟨es, inserts⟩ : ∃ es, Run (step n) (Alone membership w.attempts.length)
      { w.joined att with saves := w.saves ++ [job] } es inserted :=
    insert_run (w.joined att) w.saves job r.statements rfl unique
  have reported : step n inserted (.setLastSend w.saves.length true true) = some recorded := by
    simp only [step, inserted, World.setLastSend, List.getElem?_concat_length, Option.bind_eq_bind,
      Option.bind_some, Option.pure_def, World.setSave, set_last, if_true]
    rfl
  have answered : step n recorded (.saveReplied w.attempts.length w.saves.length) =
      some replied := by
    simp only [step, World.saveReplied, recorded, inserted, World.joined,
      List.getElem?_concat_length, Option.bind_eq_bind, Option.bind_some, SaveStatus.result?, job,
      if_true, World.advance, Attempt.saveReplied, stage, Option.pure_def, World.setAttempt,
      set_last]
    rfl
  have serves : Serves w.attempts.length inserted (.setLastSend w.saves.length true true) :=
    ⟨{ job with todo := [] }, List.getElem?_concat_length, rfl⟩
  have ending : Run (step n) (Alone membership w.attempts.length) inserted
      [.setLastSend w.saves.length true true, .saveReplied w.attempts.length w.saves.length]
      replied :=
    .next ⟨⟨rfl, rfl⟩, serves, trivial⟩ reported
      (.next ⟨trivial, rfl, trivial⟩ answered (.refl _))
  exact ⟨.saveArrives w.attempts.length :: (es ++ _), replied,
    .next ⟨trivial, rfl, trivial⟩ arrived (inserts.trans ending), rfl⟩

theorem request_run (data : UserLastSendData) (att : Attempt) (own : att.newMsg = m)
    (fresh : data.clientTime ≠ m.clientTime)
    (stage : att.stage = afterGetUserLastSendData m (.ok data)) :
    ∃ es idRequest, Run (step n) (Alone membership w.attempts.length) (w.joined att) es
        (w.joined { att with stage := .idGenerate idRequest }) ∧
      RequestOf (Fixed membership) m idRequest := by
  obtain ⟨same, -⟩ | ⟨-, ⟨kind, after⟩ | ⟨kind, after⟩⟩ := afterGetUserLastSendData_cases m data
  · exact absurd same fresh
  · refine ⟨[], privateIdRequest m, ?_, by simp only [RequestOf, kind]⟩
    rw [← after, ← stage]
    exact .refl _
  · have reported : step n (w.joined att)
        (.groupMembers w.attempts.length (membership m.peerId)) =
        some (w.joined
          { att with stage := .idGenerate (groupIdRequest m (membership m.peerId)) }) := by
      apply advance_last
      simp only [Attempt.groupMembers, stage, after, afterGetGroupMembers, own]
    have lists : Lists (Fixed membership) (w.joined att)
        (.groupMembers w.attempts.length (membership m.peerId)) := by
      intro other found
      have same : att = other := by simpa [World.joined] using found
      rw [← same, own]
      rfl
    refine ⟨[.groupMembers w.attempts.length (membership m.peerId)],
      groupIdRequest m (membership m.peerId), .next ⟨trivial, rfl, lists⟩ reported (.refl _), ?_⟩
    simp only [RequestOf, kind]
    exact ⟨_, rfl, rfl⟩

variable {listed : Int → List Int → Prop}

def Latest (w : World) (m : NewMsg) : Prop :=
  ∀ att ∈ w.attempts, att.newMsg.userId = m.userId → att.newMsg.clientTime ≤ m.clientTime

/-- A lookup that does not find the latest message says that no row of it is stored. -/
theorem unstored_of_lookup (consistent : Consistent listed w) (originates : Originates w)
    (latest : Latest w m)
    (fresh : (selectLastSend w.messages m.userId).clientTime ≠ m.clientTime) :
    ∀ row ∈ w.messages, row.sender = m.userId → row.clientTime ≠ m.clientTime := by
  intro row member sender time
  obtain ⟨j, job, att, present, started, -, -, built, ids, -, rfl⟩ :=
    originates.save consistent member
  have ⟨own, inside, key, _⟩ := consistent.started_quotes present started
  rw [built.sender, built.clientTime] at key
  simp only [Row.key, Prod.mk.injEq] at key
  obtain ⟨user, sender', time'⟩ := key
  have owned : own ∈ ownRows w.messages m.userId :=
    mem_ownRows.mpr ⟨inside, user.trans sender, sender'.trans sender⟩
  have lower := (maxClientTime_of_ownRow owned).2
  obtain ⟨empty, -⟩ | ⟨other, mine, -, found⟩ := selectLastSend_cases w.messages m.userId
  · rw [empty] at owned
    exact absurd owned List.not_mem_nil
  · obtain ⟨inside', -, sender''⟩ := mem_ownRows.mp mine
    obtain ⟨_, _, att', -, -, origin, -, -, _, -, rfl⟩ := originates.save consistent inside'
    have upper := latest att' (List.mem_of_getElem? origin) sender''
    rw [found] at lower fresh
    have time : att.newMsg.clientTime = m.clientTime := time
    have bound : att.newMsg.clientTime ≤ att'.newMsg.clientTime := time' ▸ lower
    have different : att'.newMsg.clientTime ≠ m.clientTime := fresh
    omega

theorem participants_nodup (proper : ProperPeer (.start m)) (nodup : ∀ g, (membership g).Nodup) :
    (participants membership m).Nodup := by
  cases kind : m.msgType with
  | PRIVATE => simpa [participants, kind] using (proper kind).symm
  | GROUP =>
      simp only [participants, kind, List.nodup_cons]
      refine ⟨fun member => ?_, (nodup _).filter _⟩
      have different := (List.mem_filter.mp member).2
      simp at different

theorem keyUnique_unstored {idReply : List MsgIds} {r : SaveRequest}
    (keys : KeyUnique w.messages) (built : Built (Fixed membership) m idReply r)
    (distinct : (participants membership m).Nodup)
    (unstored : ∀ row ∈ w.messages, row.sender = m.userId → row.clientTime ≠ m.clientTime) :
    KeyUnique (w.messages ++ r.statements.flatten) := by
  rw [KeyUnique, List.map_append, List.nodup_append]
  refine ⟨keys, ?_, ?_⟩
  · rw [← built.participants] at distinct
    rw [built.rows, List.map_map]
    apply List.Nodup.of_map Prod.fst
    rw [List.map_map]
    exact distinct
  · rintro _ before _ new rfl
    obtain ⟨row, member, same⟩ := List.mem_map.mp before
    obtain ⟨fresh, inside, key⟩ := List.mem_map.mp new
    rw [built.rows] at inside
    obtain ⟨ids, -, rfl⟩ := List.mem_map.mp inside
    have keys := same.trans key.symm
    simp only [Row.key, participantRow, Prod.mk.injEq] at keys
    exact unstored row member keys.2.1 keys.2.2

theorem afterSave_accepts {idReply : List MsgIds} {r : SaveRequest}
    (built : Built listed m idReply r) (started : ∀ entry ∈ idReply, 0 < entry.startMsgId)
    (idRequest : List UserAndIdNum) :
    ∃ reply, (afterSave m idRequest idReply r (.ok ())).reply? = some reply := by
  obtain ⟨own, others, split, -, id, -⟩ := built.first_row
  obtain ⟨_, _, failed, -⟩ | ⟨zero, -⟩ | ⟨-, accepted⟩ :=
    afterSave_cases m idRequest idReply r (.ok ())
  · cases failed
  · have above := started own (by rw [split]; exact List.mem_cons_self)
    omega
  · rw [accepted]
    exact ⟨_, rfl⟩

theorem identified_run (positive : 0 < n) {idRequest : List UserAndIdNum} (own : att.newMsg = m)
    (stage : att.stage = .idGenerate idRequest) (unserved : att.idReply = [])
    (asked : RequestOf (Fixed membership) m idRequest) (keys : KeyUnique w.messages)
    (distinct : (participants membership m).Nodup)
    (unstored : ∀ row ∈ w.messages, row.sender = m.userId → row.clientTime ≠ m.clientTime)
    (nonneg : ∀ v, 0 ≤ lastId w.idgen v)
    (room : ∀ v ∈ participants membership m, 0 ≤ v ∧ lastId w.idgen v + 1 + n < 2 ^ 63) :
    ∃ es v reply, Run (step n) (Alone membership w.attempts.length) (w.joined att) es v ∧
      Replied v w.attempts.length m reply := by
  have users := asked.participants
  have room' : ∀ user ∈ idRequest,
      0 ≤ user.userId ∧ lastId w.idgen user.userId + 1 + n < 2 ^ 63 := by
    intro user member
    apply room
    rw [← users]
    exact List.mem_map_of_mem member
  obtain ⟨es, idgen, idReply, serving, served, started⟩ : ∃ es idgen idReply,
      Run (step n) (Alone membership w.attempts.length) (w.joined att) es
        (World.joined { w with idgen } { att with idReply := att.idReply ++ idReply }) ∧
      idReply.map MsgIds.userId = idRequest.map UserAndIdNum.userId ∧
      ∀ entry ∈ idReply, 0 < entry.startMsgId :=
    generate_run positive w att [] idRequest stage (by rw [unserved]; rfl) (users ▸ distinct)
      (fun user member => asked.need member) nonneg room'
  rw [unserved, List.nil_append] at serving
  have complete : idReply.length = idRequest.length := by
    simpa using congrArg List.length served
  obtain ⟨r, request⟩ := saveRequest_defined asked complete 0
  have built : Built (Fixed membership) m idReply r :=
    ⟨⟨idRequest, asked, served⟩, by rw [saveRequest_msgTime request]; exact request⟩
  let saving : Attempt := { att with stage := .save idRequest r, idReply, request := some r }
  have replied : step n (World.joined { w with idgen } { att with idReply })
      (.idReplied w.attempts.length 0) = some (World.joined { w with idgen } saving) := by
    apply advance_last
    simp only [Attempt.idReplied, stage, complete, if_true, own, request, Option.map_some, saving]
  obtain ⟨fs, v, storing, attempts⟩ : ∃ fs v,
      Run (step n) (Alone membership w.attempts.length)
        (World.joined { w with idgen } saving) fs v ∧
      v.attempts = w.attempts ++ [{ saving with
        stage := afterSave att.newMsg idRequest idReply r (.ok ()) }] :=
    stored_run { w with idgen } saving rfl (keyUnique_unstored keys built distinct unstored)
  obtain ⟨reply, accepted⟩ := afterSave_accepts built started idRequest
  have found : v.attempts[w.attempts.length]? = some { saving with
      stage := afterSave att.newMsg idRequest idReply r (.ok ()) } := by
    rw [attempts, List.getElem?_concat_length]
  have rest : Run (step n) (Alone membership w.attempts.length)
      (World.joined { w with idgen } { att with idReply })
      (.idReplied w.attempts.length 0 :: fs) v :=
    .next ⟨trivial, rfl, trivial⟩ replied storing
  exact ⟨_, v, reply, serving.trans rest, _, found, own, own ▸ accepted⟩

/-- Whatever has failed before: the latest message of a sender whose record has expired is
answered by an attempt of its own, once nothing fails any more. -/
theorem answered_run (positive : 0 < n) (consistent : Consistent listed w)
    (originates : Originates w) (nonneg : ∀ v, 0 ≤ lastId w.idgen v)
    (nodup : ∀ g, (membership g).Nodup) (proper : ProperPeer (.start m)) (latest : Latest w m)
    (expired : w.redis m.userId = none)
    (room : ∀ v ∈ participants membership m, 0 ≤ v ∧ lastId w.idgen v + 1 + n < 2 ^ 63) :
    ∃ es v reply,
      Run (step n) (Alone membership w.attempts.length) (w.joined { newMsg := m }) es v ∧
      Replied v w.attempts.length m reply := by
  let data := selectLastSend w.messages m.userId
  let looked : Attempt := {
    newMsg := m
    lookup := .answered data
    stage := afterGetUserLastSendData m (.ok data) }
  obtain ⟨es, looking⟩ : ∃ es, Run (step n) (Alone membership w.attempts.length)
      (w.joined { newMsg := m }) es (w.joined looked) := lookup_run expired
  by_cases same : data.clientTime = m.clientTime
  · refine ⟨es, _, { msgId := data.msgId, msgTime := data.msgTime }, looking, looked,
      List.getElem?_concat_length, rfl, ?_⟩
    simp only [looked, afterGetUserLastSendData, same, if_true, Stage.reply?, Outcome.reply?]
  · have unstored := unstored_of_lookup consistent originates latest same
    have distinct := participants_nodup proper nodup
    obtain ⟨fs, idRequest, asking, asked⟩ : ∃ fs idRequest,
        Run (step n) (Alone membership w.attempts.length) (w.joined looked) fs
          (w.joined { looked with stage := .idGenerate idRequest }) ∧
        RequestOf (Fixed membership) m idRequest := request_run data looked rfl same rfl
    have own : Attempt.newMsg { looked with stage := .idGenerate idRequest } = m := rfl
    obtain ⟨gs, v, reply, answering, replied⟩ := identified_run positive own rfl rfl asked
      consistent.keys distinct unstored nonneg room
    exact ⟨_, v, reply, looking.trans (asking.trans answering), replied⟩

end Tinyim.Delivery
