import Tinyim.Delivery.Agreement

/-! The duplicate check that ends a call before anything is saved. A lookup that finds
nothing answers with the zeros that it started from, which a client time can equal. -/
namespace Tinyim.Delivery
open Dbproxy Logic Transition

def Backed (w : World) (m : NewMsg) (msgId : Int) : Prop :=
  ∃ row ∈ w.messages, row.key = (m.userId, m.userId, m.clientTime) ∧ row.msgId = msgId

/-- What attempt `a` has replied without saving anything is the id of a stored row. -/
def SoundAt (w : World) (a : Nat) : Prop :=
  ∀ att reply, w.attempts[a]? = some att → att.stage = .finished (.duplicate reply) →
    Backed w att.newMsg reply.msgId

/-- The lookup is not left with zeros that the client time equals: Redis has no record to
misread (or the row has id zero too), and MySQL has an own row. -/
def Distinguishes (w : World) : Event → Prop
  | .redisGet a reply => reply = .value → ∀ att ∈ w.attempts[a]?, att.newMsg.clientTime = 0 →
      w.redis att.newMsg.userId = none ∨ Backed w att.newMsg 0
  | .select a executed => executed = true → ∀ att ∈ w.attempts[a]?,
      att.newMsg.clientTime = 0 → ownRows w.messages att.newMsg.userId ≠ []
  | _ => True

/-- An answer that equals the client time is the answer of a row. -/
def AnswersBacked (w : World) : Prop :=
  ∀ (a : Nat) att data, w.attempts[a]? = some att → att.lookup = .answered data →
    data.clientTime = att.newMsg.clientTime → Backed w att.newMsg data.msgId

instance : Decidable (Backed w m msgId) := by unfold Backed; infer_instance

instance : (w : World) → (e : Event) → Decidable (Distinguishes w e)
  | w, .redisGet a reply => inferInstanceAs (Decidable (reply = .value →
      ∀ att ∈ w.attempts[a]?, att.newMsg.clientTime = 0 →
        w.redis att.newMsg.userId = none ∨ Backed w att.newMsg 0))
  | w, .select a executed => inferInstanceAs (Decidable (executed = true →
      ∀ att ∈ w.attempts[a]?, att.newMsg.clientTime = 0 →
        ownRows w.messages att.newMsg.userId ≠ []))
  | _, .start _ | _, .lookedUp _ | _, .groupMembers .. | _, .idGenerate .. | _, .idReplied ..
  | _, .saveArrives _ | _, .insert .. | _, .setLastSend .. | _, .saveReplied .. | _, .rpcFails ..
  | _, .strayIds .. | _, .idgenRestarts | _, .redisExpires _ => inferInstanceAs (Decidable True)

variable {listed : Int → List Int → Prop} {n : Int} {w w₀ w₁ w₂ w' : World} {e : Event} {a : Nat}
  {att next : Attempt}

theorem Backed.grow (backed : Backed w m msgId) (moved : Moves n w e w') : Backed w' m msgId := by
  obtain ⟨row, present, facts⟩ := backed
  exact ⟨row, messages_kept moved present, facts⟩

theorem answered_cases (consistent : Consistent listed w) (evolved : Evolves n w w' a att e next)
    (answered : next.lookup = .answered data) :
    att.lookup = .answered data ∨
      e = .redisGet a .value ∧ w.redis att.newMsg.userId ≠ none ∧ data = {} ∨
      e = .select a true ∧ data = selectLastSend w.messages att.newMsg.userId := by
  cases evolved with
  | kept | identified | idRefused => exact .inl answered
  | advanced adv =>
      cases adv with
      | redisHit stage lookup present =>
          obtain ⟨d, rfl⟩ := consistent.written _ _ present
          cases answered
          exact .inr (.inl ⟨rfl, by rw [present]; exact Option.some_ne_none _, rfl⟩)
      | redisMiss => cases answered
      | selected =>
          cases answered
          exact .inr (.inr ⟨rfl, rfl⟩)
      | lookedUp | groupMembers | idReplied | saveReplied | failed => exact .inl answered

theorem select_backed (owned : ownRows w.messages m.userId ≠ [])
    (same : (selectLastSend w.messages m.userId).clientTime = m.clientTime) :
    Backed w m (selectLastSend w.messages m.userId).msgId := by
  obtain ⟨nothing, -⟩ | ⟨row, mine, -, answered⟩ := selectLastSend_cases w.messages m.userId
  · exact absurd nothing owned
  · rw [answered] at same ⊢
    obtain ⟨present, user, sender⟩ := mem_ownRows.mp mine
    have time : row.clientTime = m.clientTime := same
    exact ⟨row, present, by rw [Row.key, user, sender, time], rfl⟩

theorem answered_backed (distinguishes : Distinguishes w e)
    (found : w.attempts[a]? = some att)
    (answer : e = .redisGet a .value ∧ w.redis att.newMsg.userId ≠ none ∧ data = {} ∨
      e = .select a true ∧ data = selectLastSend w.messages att.newMsg.userId)
    (same : data.clientTime = att.newMsg.clientTime) : Backed w att.newMsg data.msgId := by
  obtain ⟨rfl, recorded, rfl⟩ | ⟨rfl, rfl⟩ := answer
  · obtain absent | backed := distinguishes rfl att found same.symm
    · exact absurd absent recorded
    · exact backed
  · by_cases zero : att.newMsg.clientTime = 0
    · exact select_backed (distinguishes rfl att found zero) same
    · apply select_backed ?_ same
      intro nothing
      obtain ⟨-, zeros⟩ | ⟨row, mine, -⟩ := selectLastSend_cases w.messages att.newMsg.userId
      · rw [zeros] at same
        exact zero same.symm
      · rw [nothing] at mine
        exact absurd mine List.not_mem_nil

theorem AnswersBacked.step (backed : AnswersBacked w) (consistent : Consistent listed w)
    (distinguishes : Distinguishes w e) (moved : Moves n w e w') : AnswersBacked w' := by
  intro a next data found answered same
  obtain ⟨m, -, rfl, -⟩ | ⟨att, present, evolved⟩ := attempt_before moved found
  · cases answered
  · rw [evolved.newMsg] at same ⊢
    obtain before | answer := answered_cases consistent evolved answered
    · exact (backed a att data present before same).grow moved
    · exact (answered_backed distinguishes present answer same).grow moved

theorem soundAt_step (sound : ∀ a, SoundAt w a) (backed : AnswersBacked w)
    (moved : Moves n w e w') : ∀ a, SoundAt w' a := by
  intro a next reply found finished
  obtain ⟨m, -, rfl, -⟩ | ⟨att, present, evolved⟩ := attempt_before moved found
  · cases finished
  · rw [evolved.newMsg]
    obtain before | ⟨data, -, answered, same, rfl⟩ := duplicate_evolves evolved finished
    · exact (sound a att reply present before).grow moved
    · exact (backed a att data present answered same).grow moved

theorem lookedUp_eq_some (moved : att.lookedUp = some next) :
    ∃ data, att.lookup = .answered data ∧
      next = { att with stage := afterGetUserLastSendData att.newMsg (.ok data) } := by
  simp only [Attempt.lookedUp] at moved
  split at moved
  · rename_i data stage lookup
    cases moved
    exact ⟨data, lookup, rfl⟩
  · contradiction

theorem lookedUp_soundAt (found : w.attempts[a]? = some att) (lookup : att.lookup = .answered data)
    (stepped : step n w (.lookedUp a) = some w') :
    SoundAt w' a ↔ (data.clientTime = att.newMsg.clientTime → Backed w att.newMsg data.msgId) := by
  obtain ⟨att', next, found', moved, rfl⟩ := advance_eq_some stepped
  cases found.symm.trans found'
  obtain ⟨data', lookup', rfl⟩ := lookedUp_eq_some moved
  cases lookup.symm.trans lookup'
  have after := get_set_self (x := { att with
    stage := afterGetUserLastSendData att.newMsg (.ok data) }) found
  constructor
  · intro sound same
    apply sound _ { msgId := data.msgId, msgTime := data.msgTime } after
    simp only [afterGetUserLastSendData, same, if_true]
  · intro backed other reply present finished
    cases after.symm.trans present
    obtain ⟨same, own⟩ := duplicate_of_finished finished
    cases own
    exact backed same

theorem lookup_answer (consistent : Consistent listed w)
    (lookup : e = .redisGet a .value ∨ e = .select a true) (first : step n w e = some w₁)
    (second : step n w₁ (.lookedUp a) = some w₂) :
    ∃ att next data, w.attempts[a]? = some att ∧ w₁ = w.setAttempt a next ∧
      next.newMsg = att.newMsg ∧ next.lookup = .answered data ∧
      (e = .redisGet a .value ∧ w.redis att.newMsg.userId ≠ none ∧ data = {} ∨
        e = .select a true ∧ data = selectLastSend w.messages att.newMsg.userId) := by
  obtain ⟨att, next, found, adv, rfl⟩ : ∃ att next, w.attempts[a]? = some att ∧
      Advances w a att e next ∧ w₁ = w.setAttempt a next := by
    obtain rfl | rfl := lookup
    · obtain ⟨att, next, found, moved, same⟩ := advance_eq_some first
      exact ⟨att, next, found, redisGet_advances moved, same⟩
    · obtain ⟨att, next, found, moved, same⟩ := advance_eq_some first
      exact ⟨att, next, found, select_advances moved, same⟩
  obtain ⟨waiting, _, found', moved, -⟩ := advance_eq_some second
  obtain ⟨data, answered, -⟩ := lookedUp_eq_some moved
  cases (get_set_self found).symm.trans found'
  have evolves : Evolves n w w a att e next := .advanced adv
  refine ⟨att, next, data, found, rfl, evolves.newMsg, answered, ?_⟩
  obtain before | answer := answered_cases consistent evolves answered
  · -- Both events find the lookup open.
    cases adv with
    | redisHit _ open_ | redisMiss _ open_ | selected _ open_ => cases before.symm.trans open_
    | failed fault =>
        obtain rfl | rfl | ⟨_, rfl⟩ := fault
        · exact lookup.elim nofun nofun
        · exact lookup.elim nofun nofun
        · exact lookup.elim nofun nofun
    | lookedUp | groupMembers | idReplied | saveReplied => exact lookup.elim nofun nofun
  · exact answer

/-- A lookup that does not distinguish takes absence for a message of time zero. -/
theorem distinguishes_of_backed (found : w.attempts[a]? = some att)
    (answer : e = .redisGet a .value ∧ w.redis att.newMsg.userId ≠ none ∧ data = {} ∨
      e = .select a true ∧ data = selectLastSend w.messages att.newMsg.userId)
    (backed : data.clientTime = att.newMsg.clientTime → Backed w att.newMsg data.msgId) :
    Distinguishes w e := by
  obtain ⟨rfl, recorded, rfl⟩ | ⟨rfl, rfl⟩ := answer
  · intro _ other present zero
    cases found.symm.trans present
    exact .inr (backed zero.symm)
  · intro _ other present zero nothing
    cases found.symm.trans present
    obtain ⟨-, zeros⟩ | ⟨row, mine, -⟩ := selectLastSend_cases w.messages att.newMsg.userId
    · rw [zeros] at backed
      obtain ⟨row, stored, key, -⟩ := backed zero.symm
      simp only [Row.key, Prod.mk.injEq] at key
      have mine : row ∈ ownRows w.messages att.newMsg.userId :=
        mem_ownRows.mpr ⟨stored, key.1, key.2.1⟩
      rw [nothing] at mine
      exact absurd mine List.not_mem_nil
    · rw [nothing] at mine
      exact absurd mine List.not_mem_nil

/-- In every run whose lookups distinguish, a call that replies without saving has a stored
row of its message with the id of the reply. One lookup is answered soundly exactly when it
distinguishes. -/
theorem short_circuit_sound_iff (initial : Initial w₀) :
    (∀ es w, Run (step n) Distinguishes w₀ es w → ∀ a, SoundAt w a) ∧
    ∀ es w e a w₁ w₂, Run (step n) (fun _ _ => True) w₀ es w →
      (e = .redisGet a .value ∨ e = .select a true) → step n w e = some w₁ →
      step n w₁ (.lookedUp a) = some w₂ → (SoundAt w₂ a ↔ Distinguishes w e) := by
  constructor
  · intro es w run
    have all := run_along (fun w => AnswersBacked w ∧ ∀ a, SoundAt w a)
      (fun consistent ⟨backed, sound⟩ distinguishes moved =>
        ⟨backed.step consistent distinguishes moved, soundAt_step sound backed moved⟩) run
      (initial_consistent initial) ⟨fun a att _ found => by simp [initial.attempts] at found,
        fun a att _ found => by simp [initial.attempts] at found⟩
    exact all.2.2
  · intro es w e a w₁ w₂ run lookup first second
    have consistent := consistent_of_run initial run
    obtain ⟨att, next, data, found, rfl, same, answered, answer⟩ :=
      lookup_answer consistent lookup first second
    rw [lookedUp_soundAt (get_set_self found) answered second, same]
    refine ⟨distinguishes_of_backed found answer, ?_⟩
    intro distinguishes
    have backed := answered_backed distinguishes found answer
    exact backed

/-- A saved message is sent again after its record has expired, and the sender sends a
message of time zero, which the newest own row tells apart. -/
def timeZeroAfterOthers : List Event :=
  let m : NewMsg := ⟨7, 8, .PRIVATE, "hi".toList, 100, 0⟩
  let zero : NewMsg := ⟨7, 8, .PRIVATE, "ho".toList, 0, 0⟩
  [.start m, .redisGet 0 .value, .select 0 true, .lookedUp 0, .idGenerate 0 {}, .idGenerate 0 {},
    .idReplied 0 50, .saveArrives 0, .insert 0 .executed, .setLastSend 0 true true,
    .saveReplied 0 0, .redisExpires 7, .start m, .redisGet 1 .value, .select 1 true, .lookedUp 1,
    .start zero, .redisGet 2 .value, .select 2 true, .lookedUp 2]

theorem short_circuit_sound_iff_time_zero :
    ∃ w, Run (step 1024) Distinguishes .empty timeZeroAfterOthers w ∧
      w.attempts.map (fun att => att.stage.reply?.map MsgReply.msgId) = [some 1, some 1, none] ∧
      SoundAt w 1 ∧ SoundAt w 2 := by
  obtain ⟨w, run, replies⟩ := Run.of_check (step 1024) (fun w e => decide (Distinguishes w e))
    .empty timeZeroAfterOthers (fun w => decide (w.attempts.map (fun att =>
      att.stage.reply?.map MsgReply.msgId) = [some 1, some 1, none]))
    (fun _ _ => of_decide_eq_true) (by decide)
  have sound := (short_circuit_sound_iff initial_empty).1 _ _ run
  exact ⟨w, run, of_decide_eq_true replies, sound 1, sound 2⟩

def firstAtTimeZero : List Event :=
  [.start ⟨7, 8, .PRIVATE, "hi".toList, 0, 0⟩, .redisGet 0 .value, .select 0 true, .lookedUp 0]

theorem absent_message_acknowledged :
    ∃ w, Run (step 1024) (fun _ _ => True) .empty firstAtTimeZero w ∧ w.messages = [] ∧
      ¬ SoundAt w 0 := by
  obtain ⟨w, run, checked⟩ : ∃ w, Run (step 1024) (fun _ _ => True) .empty firstAtTimeZero w ∧ _ :=
    Run.of_check (step 1024) (fun _ _ => true) .empty firstAtTimeZero
      (fun w => decide (w.messages = [] ∧
        w.attempts[0]?.map Attempt.stage = some (.finished (.duplicate {}))))
      (fun _ _ _ => trivial) (by decide)
  obtain ⟨empty, replied⟩ := of_decide_eq_true checked
  obtain ⟨att, found, finished⟩ := Option.map_eq_some_iff.mp replied
  refine ⟨w, run, empty, ?_⟩
  intro sound
  obtain ⟨row, present, -⟩ := sound att {} found finished
  rw [empty] at present
  exact absurd present List.not_mem_nil

end Tinyim.Delivery
