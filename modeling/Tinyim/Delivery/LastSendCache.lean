import Tinyim.Dbproxy.LastSendRecord
import Tinyim.Delivery.Invariants

/-! The last-send records in Redis never run ahead of MySQL. The script is only reached
when every statement of its save has been executed, and rows stay. -/
namespace Tinyim.Delivery
open Dbproxy Logic Transition

def CacheBehind (w : World) : Prop :=
  ∀ userId d, w.redis userId = some (recordText d) →
    Quotes w.messages userId d.clientTime d.msgId d.msgTime

variable {listed : Int → List Int → Prop} {n : Int} {w w₀ w' : World} {e : Event} {j : Nat}

theorem Consistent.complete_quotes {job : SaveJob} (consistent : Consistent listed w)
    (found : w.saves[j]? = some job) (complete : job.todo = []) :
    Quotes w.messages job.request.sender job.request.lastSend.clientTime
      job.request.lastSend.msgId job.request.lastSend.msgTime :=
  consistent.started_quotes found (consistent.complete_started found complete)

theorem CacheBehind.step (behind : CacheBehind w) (consistent : Consistent listed w)
    (moved : Moves n w e w') : CacheBehind w' := by
  intro userId d found
  obtain old | ⟨j, job, present, complete, rfl, same⟩ := redis_after moved found
  · exact (behind userId d old).grow moved
  · have quotes := consistent.complete_quotes present complete
    obtain ⟨id, client, time⟩ := recordText_injective same
    rw [← id, ← client, ← time] at quotes
    exact quotes.grow moved

theorem run_cacheBehind {allowed : World → Event → Prop} (initial : Initial w₀)
    (behind : CacheBehind w₀) (run : Run (step n) allowed w₀ es w) : CacheBehind w := by
  have both := run_along CacheBehind
    (fun consistent behind _ moved => behind.step consistent moved) run
    (initial_consistent initial) behind
  exact both.2

/-- In every run, whatever interleaves, fails or expires, a record in Redis is one that the
script wrote, quotes a stored own row and is not newer than the newest own row. -/
theorem cache_never_ahead (initial : Initial w₀) (behind : CacheBehind w₀)
    (run : Run (step n) (fun _ _ => True) w₀ es w) :
    (∀ userId record, w.redis userId = some record → ∃ d, record = recordText d) ∧
    ∀ userId d, w.redis userId = some (recordText d) →
      Quotes w.messages userId d.clientTime d.msgId d.msgTime ∧
        ∃ newest, maxClientTime w.messages userId = some newest ∧ d.clientTime ≤ newest := by
  have consistent := consistent_of_run initial run
  refine ⟨consistent.written, ?_⟩
  intro userId d found
  have quotes := run_cacheBehind initial behind run userId d found
  have ⟨row, present, key, _⟩ := quotes
  simp only [Row.key, Prod.mk.injEq] at key
  obtain ⟨user, sender, time⟩ := key
  obtain ⟨newest, bounded⟩ := (maxClientTime_of_ownRow (mem_ownRows.mpr ⟨present, user, sender⟩)).1
  rw [time] at bounded
  exact ⟨quotes, newest, bounded⟩

/-- The record of the first of two messages is still there when the second is stored and
its Redis command is lost. -/
def laggingCache : List Event :=
  let first : NewMsg := ⟨7, 8, .PRIVATE, "one".toList, 100, 0⟩
  let second : NewMsg := ⟨7, 5, .GROUP, "two".toList, 101, 0⟩
  [.start first, .redisGet 0 .value, .select 0 true, .lookedUp 0, .idGenerate 0 {},
    .idGenerate 0 {}, .idReplied 0 50, .saveArrives 0, .insert 0 .executed,
    .setLastSend 0 true true, .saveReplied 0 0, .start second, .redisGet 1 .value, .lookedUp 1,
    .groupMembers 1 [9, 7], .idGenerate 1 {}, .idGenerate 1 {}, .idReplied 1 51, .saveArrives 1,
    .insert 1 .executed, .insert 1 .executed, .setLastSend 1 false false]

theorem cache_never_ahead_lagging :
    ∃ w, Run (step 1024) (fun _ _ => True) .empty laggingCache w ∧
      maxClientTime w.messages 7 = some 101 ∧
      Quotes w.messages 7 100 1 50 ∧
      ∃ newest, maxClientTime w.messages 7 = some newest ∧ 100 ≤ newest := by
  obtain ⟨w, run, checked⟩ : ∃ w, Run (step 1024) (fun _ _ => True) .empty laggingCache w ∧ _ :=
    Run.of_check (step 1024) (fun _ _ => true) .empty laggingCache
      (fun w => decide (maxClientTime w.messages 7 = some 101 ∧
        w.redis 7 = some (recordText ⟨7, 1, 100, 50⟩)))
      (fun _ _ _ => trivial) (by decide)
  obtain ⟨newest, recorded⟩ := of_decide_eq_true checked
  have behind : CacheBehind .empty := fun userId d found => by cases found
  exact ⟨w, run, newest, (cache_never_ahead initial_empty behind run).2 7 _ recorded⟩

end Tinyim.Delivery
