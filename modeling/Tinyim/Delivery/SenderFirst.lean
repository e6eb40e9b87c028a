import Tinyim.Delivery.Contract

/-! The sender's own row is the first one that is stored of a message. It shows a partly
stored message to the lookup and refuses every other save of it. -/
namespace Tinyim.Delivery
open Dbproxy Logic Transition

variable {listed : Int → List Int → Prop} {n : Int} {w w₀ w' : World} {e : Event} {i j : Nat}
  {job later : SaveJob}

theorem started_after (moved : Moves n w e w') (found : w.saves[j]? = some job)
    (started : job.Started) :
    ∃ later, w'.saves[j]? = some later ∧ later.Started ∧ later.request = job.request := by
  obtain ⟨later, after, proceeded⟩ := save_after moved found
  refine ⟨later, after, ?_, proceeded.fixed.2⟩
  cases proceeded with
  | kept | stopped | recorded => exact started
  | inserted running next stored unsaved =>
      rename_i rows todo status
      rw [SaveJob.Started, next, List.length_cons] at started
      exact Nat.lt_of_succ_lt started

theorem started_run {allowed : World → Event → Prop} (run : Run (step n) allowed w es w')
    (found : w.saves[j]? = some job) (started : job.Started) :
    ∃ later, w'.saves[j]? = some later ∧ later.Started ∧ later.request = job.request := by
  induction run generalizing job with
  | refl => exact ⟨job, found, started, rfl⟩
  | next _ stepped _ ih =>
      obtain ⟨middle, present, begun, same⟩ := started_after (moves_of_step stepped) found started
      obtain ⟨last, after, ended, same'⟩ := ih present begun
      exact ⟨last, after, ended, same'.trans same⟩

theorem run_originates {allowed : World → Event → Prop} (initial : Initial w₀)
    (empty : w₀.messages = []) (run : Run (step n) allowed w₀ es w) :
    Consistent (fun _ _ => True) w ∧ Originates w :=
  run_along Originates (fun consistent originates _ moved => originates.step consistent moved) run
    (initial_consistent initial) (originates_of_empty empty)

/-- In every run from an empty table the sender's own row stands beside every row of its
message, where the MAX lookup sees it, and only one save of the message ever stores anything. -/
theorem own_row_comes_first (initial : Initial w₀) (empty : w₀.messages = [])
    (run : Run (step n) (fun _ _ => True) w₀ es w) (member : row ∈ w.messages) :
    (∃ own ∈ w.messages, own.key = (row.sender, row.sender, row.clientTime)) ∧
    (∃ newest, maxClientTime w.messages row.sender = some newest ∧ row.clientTime ≤ newest) ∧
    ∃ (j : Nat) (job : SaveJob), w.saves[j]? = some job ∧ job.Started ∧
      ∀ fs w', Run (step n) (fun _ _ => True) w fs w' →
        ∀ (i : Nat) other, w'.saves[i]? = some other → other.Started →
          other.request.sender = row.sender → other.request.clientTime = row.clientTime →
            i = j := by
  obtain ⟨consistent, originates⟩ := run_originates initial empty run
  obtain ⟨j, job, att, present, started, -, -, built, ids, -, rfl⟩ :=
    originates.save consistent member
  have ⟨own, stored, key, _⟩ := consistent.started_quotes present started
  rw [built.sender, built.clientTime] at key
  refine ⟨⟨own, stored, key⟩, ?_, j, job, present, started, ?_⟩
  · simp only [Row.key, Prod.mk.injEq] at key
    obtain ⟨user, sender, time⟩ := key
    obtain ⟨newest, bounded⟩ :=
      (maxClientTime_of_ownRow (mem_ownRows.mpr ⟨stored, user, sender⟩)).1
    rw [time] at bounded
    exact ⟨newest, bounded⟩
  · intro fs w' rest i other found begun sender time
    obtain ⟨last, after, ended, same⟩ := started_run rest present started
    have consistent' := run_consistent (fun w e _ => lists_any w e) rest consistent
    apply consistent'.single i j other last found after begun ended
    · rw [same, sender, built.sender]
      rfl
    · rw [same, time, built.clientTime]
      rfl

/-- A group save stops at its second member; the save of the retry is refused. -/
def refusedRetry : List Event :=
  let m : NewMsg := ⟨7, 5, .GROUP, "hi".toList, 100, 0⟩
  [.start m, .start m, .redisGet 0 .value, .redisGet 1 .value, .select 0 true, .select 1 true,
    .lookedUp 0, .lookedUp 1, .groupMembers 0 [8, 7, 9], .groupMembers 1 [8, 7, 9],
    .idGenerate 0 {}, .idGenerate 0 {}, .idGenerate 0 {}, .idGenerate 1 {}, .idGenerate 1 {},
    .idGenerate 1 {}, .idReplied 0 50, .idReplied 1 51, .saveArrives 0, .saveArrives 1,
    .insert 0 .executed, .insert 0 .executed, .insert 0 .refused, .insert 1 .executed]

theorem own_row_comes_first_refused :
    ∃ w, Run (step 1024) (fun _ _ => True) .empty refusedRetry w ∧
      w.messages.map (fun row => (row.key, row.msgId)) = [((7, 7, 100), 1), ((8, 7, 100), 1)] ∧
      w.saves.map (·.status) = [.failed insertFailed, .failed insertFailed] ∧
      ∃ own ∈ w.messages, own.key = (7, 7, 100) := by
  obtain ⟨w, run, checked⟩ : ∃ w, Run (step 1024) (fun _ _ => True) .empty refusedRetry w ∧ _ :=
    Run.of_check (step 1024) (fun _ _ => true) .empty refusedRetry
      (fun w => decide (w.messages.map (fun row => (row.key, row.msgId)) =
          [((7, 7, 100), 1), ((8, 7, 100), 1)] ∧
        w.saves.map (·.status) = [.failed insertFailed, .failed insertFailed]))
      (fun _ _ _ => trivial) (by decide)
  obtain ⟨rows, saves⟩ := of_decide_eq_true checked
  refine ⟨w, run, rows, saves, ?_⟩
  obtain ⟨row, member, same⟩ := List.mem_map.mp
    (show ((8, 7, 100), 1) ∈ w.messages.map (fun row => (row.key, row.msgId)) by rw [rows]; decide)
  obtain ⟨key, -⟩ := Prod.mk.inj same
  simp only [Row.key, Prod.mk.injEq] at key
  obtain ⟨-, sender, time⟩ := key
  have first := (own_row_comes_first initial_empty rfl run member).1
  rwa [sender, time] at first

end Tinyim.Delivery
