import Mathlib.Data.List.Perm.Basic
import Tinyim.Transition
import Tinyim.Access.Moves

/-! Where the Closure of a PullData call is: in its user's entry, with an operation
that took it out and is about to run it, or run. -/
namespace Tinyim.Access
open Transition

def Completion.done : Completion → Option Nat
  | .lazyRun done => some done
  | .sendtoAccess done _ _ => some done
  | .clearUserData originData _ => originData.done

/-- The pointers that an operation is about to follow are those of one call. -/
def Completion.Ready : Completion → Prop
  | .lazyRun _ => True
  | .sendtoAccess done msgs _ => msgs = some done
  | .clearUserData originData _ => ∃ call, originData.OfCall call

namespace Service
variable {s s' : Service} {u v : Int} {call : Nat} {value : Option Data}

def storedAt (s : Service) (userId : Int) (call : Nat) : Nat :=
  if (s.entry userId).bind Data.done = some call then 1 else 0

def heldBy (s : Service) (call : Nat) : Nat := s.held.countP (·.done = some call)

def timesRun (s : Service) (call : Nat) : Nat := s.ran.count call

structure Custody (s : Service) : Prop where
  fields : ∀ u data, s.entry u = some data →
    data.NoCall ∨ ∃ call, s.pulls[call]? = some u ∧ data.OfCall call
  ready : ∀ completion ∈ s.held, completion.Ready
  once : ∀ call u, s.pulls[call]? = some u →
    s.storedAt u call + s.heldBy call + s.timesRun call = 1
  unused : ∀ call, s.pulls.length ≤ call → s.heldBy call = 0 ∧ s.timesRun call = 0

theorem initial_custody : Custody {} where
  fields u _ found := absurd ((entry_initial u).symm.trans found) nofun
  ready _ member := absurd member List.not_mem_nil
  once call u found := by simp at found
  unused _ _ := ⟨rfl, rfl⟩

theorem storedAt_congr (same : s'.entry v = s.entry v) (call : Nat) :
    s'.storedAt v call = s.storedAt v call := by
  simp only [storedAt, same]

theorem Custody.owner (custody : s.Custody)
    (stored : (s.entry u).bind Data.done = some call) : s.pulls[call]? = some u := by
  obtain ⟨data, found, done⟩ := Option.bind_eq_some_iff.mp stored
  obtain ⟨nothing, -⟩ | ⟨c, mine, same, -⟩ := custody.fields u data found
  · rw [nothing] at done
    contradiction
  · obtain rfl : c = call := Option.some.inj (same.symm.trans done)
    exact mine

theorem Custody.stored_elsewhere (custody : s.Custody) (owner : s.pulls[call]? ≠ some u) :
    s.storedAt u call = 0 :=
  if_neg (mt custody.owner owner)

/-- What `u`'s entry stored moves to an operation; the new entry stores another call or none. -/
theorem Custody.taken (custody : s.Custody) (owner : s.pulls[call]? = some v)
    (entry : s'.entry = Function.update s.entry u value)
    (replaced : value.bind Data.done ≠ some call)
    (held : s'.heldBy call = s.heldBy call + s.storedAt u call) (ran : s'.ran = s.ran) :
    s'.storedAt v call + s'.heldBy call + s'.timesRun call = 1 := by
  have before := custody.once call v owner
  have same : s'.timesRun call = s.timesRun call := by rw [timesRun, ran, timesRun]
  by_cases mine : v = u
  · subst mine
    have gone : s'.storedAt v call = 0 := by
      rw [storedAt, entry, Function.update_self]
      exact if_neg replaced
    omega
  · have kept : s'.storedAt v call = s.storedAt v call :=
      storedAt_congr (by rw [entry, Function.update_of_ne mine]) call
    have elsewhere : s.storedAt u call = 0 := by
      apply custody.stored_elsewhere
      rw [owner]
      exact fun same => mine (Option.some.inj same)
    omega

theorem heldBy_append {more : List Completion} (held : s'.held = s.held ++ more) (call : Nat) :
    s'.heldBy call = s.heldBy call + more.countP (·.done = some call) := by
  rw [heldBy, held, List.countP_append, heldBy]

theorem held_of_taken {f : Nat → Completion} (holds : ∀ c, (f c).done = some c)
    (held : s'.held = s.held ++ ((s.entry u).bind Data.done).toList.map f) (call : Nat) :
    s'.heldBy call = s.heldBy call + s.storedAt u call := by
  rw [heldBy_append held, storedAt]
  cases (s.entry u).bind Data.done with
  | none => rfl
  | some c => simp [List.countP_cons, holds]

theorem Custody.unused_kept (custody : s.Custody) (pulls : s'.pulls = s.pulls ∨
      s'.pulls = s.pulls ++ [v])
    (held : ∀ call, s'.heldBy call = s.heldBy call + s.storedAt u call) (ran : s'.ran = s.ran) :
    ∀ call, s'.pulls.length ≤ call → s'.heldBy call = 0 ∧ s'.timesRun call = 0 := by
  intro call beyond
  have bound : s.pulls.length ≤ call := by
    rcases pulls with pulls | pulls
    · rwa [pulls] at beyond
    · rw [pulls, List.length_append] at beyond
      omega
  obtain ⟨free, never⟩ := custody.unused call bound
  have same : s'.timesRun call = s.timesRun call := by rw [timesRun, ran, timesRun]
  have absent : s.storedAt u call = 0 := by
    apply custody.stored_elsewhere
    rw [List.getElem?_eq_none bound]
    exact nofun
  have taken := held call
  omega

theorem Custody.fields_update (custody : s.Custody)
    (entry : s'.entry = Function.update s.entry u value)
    (pulls : ∀ call : Nat, s.pulls[call]? = some v → s'.pulls[call]? = some v)
    (written : ∀ data, value = some data →
      data.NoCall ∨ ∃ call : Nat, s'.pulls[call]? = some u ∧ data.OfCall call) :
    ∀ data, s'.entry v = some data →
      data.NoCall ∨ ∃ call : Nat, s'.pulls[call]? = some v ∧ data.OfCall call := by
  intro data found
  obtain ⟨rfl, new⟩ | ⟨-, old⟩ := entry_cases entry found
  · exact written data new
  · obtain nothing | ⟨call, owner, fields⟩ := custody.fields v data old
    · exact Or.inl nothing
    · exact Or.inr ⟨call, pulls call owner, fields⟩

theorem pulled_custody (custody : s.Custody)
    (entry : s'.entry = Function.update s.entry u (some data))
    (ofCall : data.OfCall s.pulls.length)
    (held : s'.held = s.held ++ ((s.entry u).bind Data.done).toList.map .lazyRun)
    (pulls : s'.pulls = s.pulls ++ [u]) (ran : s'.ran = s.ran) : s'.Custody := by
  have taken := held_of_taken (fun _ => rfl) held
  refine ⟨?_, ?_, ?_, custody.unused_kept (.inr pulls) taken ran⟩
  · intro v
    refine custody.fields_update entry ?_ ?_
    · intro call owner
      rw [pulls, List.getElem?_append_left (List.getElem?_eq_some_iff.mp owner).1, owner]
    · rintro _ ⟨⟩
      exact Or.inr ⟨s.pulls.length, by rw [pulls]; simp, ofCall⟩
  · intro completion member
    rw [held] at member
    rcases List.mem_append.mp member with old | new
    · exact custody.ready completion old
    · obtain ⟨call, -, rfl⟩ := List.mem_map.mp new
      trivial
  · intro call v owner
    rw [pulls] at owner
    by_cases older : call < s.pulls.length
    · rw [List.getElem?_append_left older] at owner
      refine custody.taken owner entry ?_ (taken call) ran
      rw [Option.bind_some, ofCall.1]
      intro same
      have := Option.some.inj same
      omega
    · -- The call that just came in is in the entry and nowhere else.
      obtain rfl : call = s.pulls.length := by
        have := (List.getElem?_eq_some_iff.mp owner).1
        simp only [List.length_append, List.length_singleton] at this
        omega
      obtain rfl : u = v := by simpa using owner
      have stored : s'.storedAt u s.pulls.length = 1 := by
        rw [storedAt, entry, Function.update_self]
        exact if_pos ofCall.1
      have rest := taken s.pulls.length
      obtain ⟨free, never⟩ := custody.unused s.pulls.length (Nat.le_refl _)
      have absent : s.storedAt u s.pulls.length = 0 := by
        apply custody.stored_elsewhere
        rw [List.getElem?_eq_none (Nat.le_refl _)]
        exact nofun
      rw [timesRun] at never ⊢
      rw [ran]
      omega

theorem kept_custody (custody : s.Custody)
    (fields : ∀ v data, s'.entry v = some data → data.NoCall ∨
      ∃ old, s.entry v = some old ∧ data.done = old.done ∧ data.msgs = old.msgs ∧
        data.cntl = old.cntl)
    (stored : ∀ v, (s'.entry v).bind Data.done = (s.entry v).bind Data.done)
    (polls : SamePolls s s') : s'.Custody := by
  constructor
  · intro v data found
    obtain nothing | ⟨old, present, done, msgs, cntl⟩ := fields v data found
    · exact Or.inl nothing
    · simpa only [Data.NoCall, Data.OfCall, done, msgs, cntl, polls.pulls] using
        custody.fields v old present
  · rw [polls.held]
    exact custody.ready
  · intro call v owner
    rw [polls.pulls] at owner
    simpa only [storedAt, heldBy, timesRun, stored, polls.held, polls.ran] using
      custody.once call v owner
  · simpa only [heldBy, timesRun, polls.pulls, polls.held, polls.ran] using custody.unused

theorem emptied_custody (custody : s.Custody)
    (entry : s'.entry = Function.update s.entry u value)
    (empty : ∀ data, value = some data → data.NoCall)
    (taken : ∀ call, s'.heldBy call = s.heldBy call + s.storedAt u call)
    (ready : ∀ completion ∈ s'.held, completion.Ready)
    (pulls : s'.pulls = s.pulls) (ran : s'.ran = s.ran) : s'.Custody := by
  refine ⟨?_, ready, ?_, custody.unused_kept (v := u) (.inl pulls) taken ran⟩
  · intro v
    refine custody.fields_update entry ?_ ?_
    · intro call owner
      rw [pulls, owner]
    · intro data written
      exact Or.inl (empty data written)
  · intro call v owner
    rw [pulls] at owner
    refine custody.taken owner entry ?_ (taken call) ran
    cases written : value with
    | none => exact nofun
    | some data =>
        rw [Option.bind_some, (empty data written).1]
        exact nofun

theorem refreshed_custody (custody : s.Custody)
    (entry : s'.entry = Function.update s.entry u (some data))
    (old : data = { (s.entry u).getD {} with
      heartbeatTimeoutId := data.heartbeatTimeoutId, hbarg := data.hbarg })
    (polls : SamePolls s s') : s'.Custody := by
  refine kept_custody custody ?_ ?_ polls
  · intro v found there
    obtain ⟨rfl, new⟩ | ⟨-, before⟩ := entry_cases entry there
    · cases new
      cases present : s.entry v with
      | none =>
          rw [present] at old
          rw [old]
          exact Or.inl ⟨rfl, rfl, rfl⟩
      | some before =>
          rw [present] at old
          rw [old]
          exact Or.inr ⟨before, rfl, rfl, rfl, rfl⟩
    · exact Or.inr ⟨found, before, rfl, rfl, rfl⟩
  · intro v
    rw [entry]
    by_cases same : v = u
    · subst same
      rw [Function.update_self, old]
      cases s.entry v <;> rfl
    · rw [Function.update_of_ne same]

theorem popped_custody (custody : s.Custody) (found : s.entry msg.userId = some data)
    (entry : s'.entry = Function.update s.entry msg.userId
      (some { data with done := none, msgs := none, cntl := none }))
    (held : s'.held = s.held ++ data.done.toList.map (.sendtoAccess · data.msgs msg))
    (pulls : s'.pulls = s.pulls) (ran : s'.ran = s.ran) : s'.Custody := by
  have stored : (s.entry msg.userId).bind Data.done = data.done := by rw [found]; rfl
  refine emptied_custody custody entry ?_ ?_ ?_ pulls ran
  · rintro _ ⟨⟩
    exact ⟨rfl, rfl, rfl⟩
  · apply held_of_taken (f := (.sendtoAccess · data.msgs msg)) (fun _ => rfl)
    rw [stored]
    exact held
  · intro completion member
    rw [held] at member
    rcases List.mem_append.mp member with before | new
    · exact custody.ready completion before
    · obtain ⟨done, present, rfl⟩ := List.mem_map.mp new
      obtain ⟨nothing, -⟩ | ⟨call, -, same, msgs, -⟩ := custody.fields _ data found
      · rw [nothing] at present
        exact absurd present List.not_mem_nil
      · rw [same] at present
        obtain rfl : done = call := List.mem_singleton.mp present
        exact msgs

theorem cleared_custody (custody : s.Custody) (found : s.entry u = some data)
    (entry : s'.entry = Function.update s.entry u none)
    (held : s'.held = s.held ++ if data.msgs.isSome then [.clearUserData data t] else [])
    (pulls : s'.pulls = s.pulls) (ran : s'.ran = s.ran) : s'.Custody := by
  obtain ⟨done, msgs, -⟩ | ⟨c, -, ofCall⟩ := custody.fields u data found
  · -- The handler takes nothing.
    rw [msgs, Option.isSome_none, if_neg Bool.false_ne_true, List.append_nil] at held
    refine emptied_custody custody entry nofun ?_ ?_ pulls ran
    · intro call
      rw [heldBy, held, storedAt, found, Option.bind_some, done]
      rfl
    · rw [held]
      exact custody.ready
  · rw [ofCall.2.1, Option.isSome_some, if_pos rfl] at held
    refine emptied_custody custody entry nofun ?_ ?_ pulls ran
    · intro call
      rw [heldBy_append held, storedAt, found, Option.bind_some, List.countP_singleton]
      exact congrArg _ (if_congr decide_eq_true_iff rfl rfl)
    · intro completion member
      rw [held] at member
      rcases List.mem_append.mp member with before | new
      · exact custody.ready completion before
      · rw [List.mem_singleton.mp new]
        exact ⟨c, ofCall⟩

/-- A completion can run, since its pointers are those of one call, and runs one Closure. -/
theorem complete_ready {completion : Completion} (ready : completion.Ready) (s : Service) :
    ∃ c s', completion.done = some c ∧ complete s completion = some s' ∧ s'.entry = s.entry ∧
      s'.pulls = s.pulls ∧ s'.held = s.held ∧ s'.ran = s.ran ++ [c] := by
  cases completion with
  | lazyRun done => exact ⟨done, _, rfl, rfl, rfl, rfl, rfl, rfl⟩
  | sendtoAccess done msgs msg =>
      cases ready
      exact ⟨done, _, rfl, rfl, rfl, rfl, rfl, rfl⟩
  | clearUserData originData timer =>
      obtain ⟨call, done, msgs, cntl⟩ := ready
      refine ⟨call, runClosure { s with closed := s.closed ++ [call] } call, done, ?_,
        rfl, rfl, rfl, rfl⟩
      simp only [complete, cntl, done]
      rfl

theorem completed_custody (custody : s.Custody) (found : s.held[place]? = some completion)
    (done : complete { s with held := s.held.eraseIdx place } completion = some s') :
    s'.Custody := by
  obtain ⟨bound, here⟩ := List.getElem?_eq_some_iff.mp found
  have ready := custody.ready completion (here ▸ List.getElem_mem bound)
  obtain ⟨c, last, runs, completed, entry, pulls, held, ran⟩ :=
    complete_ready ready { s with held := s.held.eraseIdx place }
  obtain rfl : s' = last := Option.some.inj (done.symm.trans completed)
  have moved : ∀ call, s.heldBy call + s.timesRun call = s'.heldBy call + s'.timesRun call := by
    intro call
    have split := (List.getElem_cons_eraseIdx_perm bound).countP_eq (·.done = some call)
    rw [here, List.countP_cons, runs] at split
    simp only [heldBy, timesRun, held, ran, List.count_append, List.count_singleton, ← split]
    grind
  constructor
  · rw [entry, pulls]
    exact custody.fields
  · intro other member
    rw [held] at member
    exact custody.ready other (List.mem_of_mem_eraseIdx member)
  · intro call u owner
    rw [pulls] at owner
    have once := custody.once call u owner
    have same : s'.storedAt u call = s.storedAt u call := storedAt_congr (congrFun entry u) call
    have taken := moved call
    omega
  · intro call beyond
    rw [pulls] at beyond
    have unused := custody.unused call beyond
    have taken := moved call
    omega

theorem step_custody (custody : s.Custody) (stepped : s.step e = some s') : s'.Custody := by
  have kept : s'.entry = s.entry ∧ SamePolls s s' → s'.Custody := by
    rintro ⟨entry, polls⟩
    refine kept_custody custody ?_ ?_ polls
    · intro v data found
      exact Or.inr ⟨data, by rwa [entry] at found, rfl, rfl, rfl⟩
    · intro v
      rw [entry]
  cases moves_of_step stepped with
  | pulled arms call _ held pulls _ _ ran =>
      exact pulled_custody custody arms.entry call held pulls ran
  | refreshed _ arms _ old polls => exact refreshed_custody custody arms.entry old polls
  | popped found entry held pulls _ _ ran _ =>
      exact popped_custody custody found entry held pulls ran
  | unserved _ same =>
      rw [same]
      exact custody
  | completed found done => exact completed_custody custody found done
  | cleared _ present entry _ held pulls _ _ ran =>
      exact cleared_custody custody present entry held pulls ran
  | fired _ moved => exact kept (quiet_of_mark moved)
  | vacant _ _ moved => exact kept (quiet_of_mark moved)
  | returned _ _ moved => exact kept (quiet_of_mark moved)

theorem run_custody (run : Run step AnyOrder {} es s) : s.Custody :=
  run.invariant Custody (fun custody _ stepped => step_custody custody stepped) initial_custody

/-- Every Closure is in one place, at its own user's entry, with one operation that
can run it, or run once; and a stored entry's pointers are those of one call. -/
theorem poll_closures_in_one_place (run : Run step AnyOrder {} es s) :
    (∀ call u, s.pulls[call]? = some u →
      s.storedAt u call + s.heldBy call + s.timesRun call = 1 ∧
        ∀ v, v ≠ u → s.storedAt v call = 0) ∧
    (∀ place, place < s.held.length → ∃ s', s.step (.complete place) = some s') ∧
    (∀ u data, s.entry u = some data →
      data.NoCall ∨ ∃ call, s.pulls[call]? = some u ∧ data.OfCall call) := by
  have custody := run_custody run
  refine ⟨?_, ?_, custody.fields⟩
  · intro call u owner
    refine ⟨custody.once call u owner, ?_⟩
    intro v other
    apply custody.stored_elsewhere
    rw [owner]
    exact fun same => other (Option.some.inj same).symm
  · intro place bound
    obtain ⟨c, s', -, completed, -⟩ := complete_ready
      (custody.ready _ (List.getElem_mem bound)) { s with held := s.held.eraseIdx place }
    exact ⟨s', Option.bind_eq_some_iff.mpr
      ⟨s.held[place], List.getElem?_eq_getElem bound, completed⟩⟩

/-- A poll replaced by another, one answered and one evicted, on two users of one bucket. -/
def threePolls : List Event :=
  [.pullData 7 1, .heartBeat 23 2, .pullData 7 3,
    .sendtoAccess ⟨7, 1, 23, 7, [], 0, 100, 101⟩, .complete 1, .pullData 23 4, .complete 0,
    .fire 4, .clearUserData 4]

theorem poll_closures_in_one_place_three :
    ∃ s, Run step AnyOrder {} threePolls s ∧ s.pulls = [7, 7, 23] ∧ s.ran = [1, 0] ∧
      s.heldBy 2 = 1 ∧ s.storedAt 23 2 + s.heldBy 2 + s.timesRun 2 = 1 := by
  obtain ⟨s, run, polls⟩ : ∃ s, Run step AnyOrder {} threePolls s ∧ _ :=
    Run.of_check step (fun _ _ => true) {} threePolls
    (fun s => decide (s.pulls = [7, 7, 23] ∧ s.ran = [1, 0] ∧ s.heldBy 2 = 1))
    (fun _ _ _ => trivial) (by decide)
  obtain ⟨pulls, ran, held⟩ := of_decide_eq_true polls
  exact ⟨s, run, pulls, ran, held,
    ((poll_closures_in_one_place run).1 2 23 (by rw [pulls]; rfl)).1⟩

end Service
end Tinyim.Access
