import Tinyim.Access.Completion

/-! The table where entries may be left behind whose Closure has been run: such an entry is
taken for one without a call. On this view every Closure is still in one place, as long as no
section takes a Closure that has been run out of an entry. -/
namespace Tinyim.Access
open Sharding OneShotTimers Transition

def Service.Unrun (s : Service) (userId : Int) : Prop :=
  ∀ call ∈ (s.entry userId).bind Data.done, call ∉ s.ran

/-- The operation takes no Closure that has been run out of an entry. -/
def TakesUnrun (s : Service) : Event → Prop
  | .pullData userId _ => s.Unrun userId
  | .sendtoAccess msg => s.Unrun msg.userId
  | .clearUserData timer => ∀ task ∈ s.timers timer, s.Unrun task.argument.userId
  | .heartBeat .. | .sendMsg .. | .complete _ | .fire _ | .handlerReturns _ => True

instance (s : Service) (userId : Int) : Decidable (s.Unrun userId) :=
  inferInstanceAs (Decidable (∀ call ∈ (s.entry userId).bind Data.done, call ∉ s.ran))

instance decidableTakesUnrun (s : Service) : (e : Event) → Decidable (TakesUnrun s e)
  | .pullData userId _ => inferInstanceAs (Decidable (s.Unrun userId))
  | .sendtoAccess msg => inferInstanceAs (Decidable (s.Unrun msg.userId))
  | .clearUserData timer =>
      inferInstanceAs (Decidable (∀ task ∈ s.timers timer, s.Unrun task.argument.userId))
  | .heartBeat .. | .sendMsg .. | .complete _ | .fire _ | .handlerReturns _ =>
      inferInstanceAs (Decidable True)

/-- The operation is about to follow a pointer of the call. -/
def Completion.Uses (completion : Completion) (call : Nat) : Prop :=
  match completion with
  | .lazyRun done => done = call
  | .sendtoAccess done msgs _ => done = call ∨ msgs = some call
  | .clearUserData originData _ => originData.done = some call ∨ originData.msgs = some call ∨
      originData.cntl = some call

def Data.unrun (ran : List Nat) (data : Data) : Data :=
  match data.done with
  | some call =>
    if call ∈ ran then { data with done := none, msgs := none, cntl := none } else data
  | none => data

theorem Data.unrun_of_fresh {ran : List Nat} {data : Data}
    (fresh : ∀ call ∈ data.done, call ∉ ran) : data.unrun ran = data := by
  simp only [Data.unrun]
  split
  · rename_i call waiting
    rw [if_neg (fresh call waiting)]
  · rfl

theorem Data.unrun_timer (ran : List Nat) (data : Data) (timer : Nat) (hbarg : Option Nat) :
    Data.unrun ran { data with heartbeatTimeoutId := timer, hbarg := hbarg } =
      { data.unrun ran with heartbeatTimeoutId := timer, hbarg := hbarg } := by
  simp only [Data.unrun]
  split
  · split <;> rfl
  · rfl

namespace Service
variable {s s' : Service} {u v : Int} {call : Nat} {value : Option Data} {data : Data}

/-- The table without the pointers of the calls that have been run. -/
def unrun (s : Service) : Service :=
  { s with idMap := fun bucket userId => (s.idMap bucket userId).map (Data.unrun s.ran) }

@[simp] theorem unrun_pulls (s : Service) : s.unrun.pulls = s.pulls := rfl

@[simp] theorem unrun_held (s : Service) : s.unrun.held = s.held := rfl

@[simp] theorem unrun_ran (s : Service) : s.unrun.ran = s.ran := rfl

theorem unrun_entry (s : Service) (u : Int) :
    s.unrun.entry u = (s.entry u).map (Data.unrun s.ran) := by
  simp only [entry, Shards.view, unrun]
  cases index kBucketNum u with
  | none => rfl
  | some bucket => rfl

theorem unrun_update (entry : s'.entry = Function.update s.entry u value)
    (ran : s'.ran = s.ran) :
    s'.unrun.entry = Function.update s.unrun.entry u (value.map (Data.unrun s.ran)) := by
  funext v
  rw [unrun_entry, entry, ran, Function.update_apply, Function.update_apply, unrun_entry]
  split <;> rfl

theorem Unrun.entry_eq (fresh : s.Unrun u) : s.unrun.entry u = s.entry u := by
  rw [unrun_entry]
  cases found : s.entry u with
  | none => rfl
  | some data =>
      rw [Option.map_some, Data.unrun_of_fresh]
      intro call waiting
      exact fresh call (by rw [found]; exact waiting)

theorem Custody.congr (custody : s.Custody) (entry : s'.entry = s.entry)
    (pulls : s'.pulls = s.pulls) (held : s'.held = s.held) (ran : s'.ran = s.ran) :
    s'.Custody := by
  constructor
  · rw [entry, pulls]
    exact custody.fields
  · rw [held]
    exact custody.ready
  · simpa only [storedAt, heldBy, timesRun, entry, pulls, held, ran] using custody.once
  · simpa only [heldBy, timesRun, pulls, held, ran] using custody.unused

theorem Custody.held_elsewhere (custody : s.Custody) (held : 1 ≤ s.heldBy call) :
    s.timesRun call = 0 ∧ ∀ v, (s.entry v).bind Data.done ≠ some call := by
  have bound : call < s.pulls.length := by
    by_contra beyond
    have free := (custody.unused call (Nat.le_of_not_lt beyond)).1
    omega
  have once := custody.once call _ (List.getElem?_eq_getElem bound)
  refine ⟨by omega, fun v stored => ?_⟩
  have owner := custody.owner stored
  rw [List.getElem?_eq_getElem bound] at owner
  have here : s.storedAt v call = 1 := if_pos stored
  rw [Option.some.inj owner] at once
  omega

theorem unrun_run (absent : ∀ data, s.entry v = some data → data.done ≠ some call) :
    (s.entry v).map (Data.unrun (s.ran ++ [call])) = (s.entry v).map (Data.unrun s.ran) := by
  cases found : s.entry v with
  | none => rfl
  | some data =>
      have other := absent data found
      simp only [Option.map_some, Data.unrun]
      cases waiting : data.done with
      | none => rfl
      | some c =>
          have differs : c ≠ call := fun same => other (same ▸ waiting)
          simp only [List.mem_append, List.mem_singleton, differs, or_false]

theorem unrun_completed (custody : s.unrun.Custody)
    (found : s.held[place]? = some completion)
    (done : complete { s with held := s.held.eraseIdx place } completion = some s') :
    s'.unrun.Custody := by
  obtain ⟨bound, here⟩ := List.getElem?_eq_some_iff.mp found
  have ready := custody.ready completion (here ▸ List.getElem_mem bound)
  obtain ⟨c, last, runs, completed, entry, pulls, held, ran⟩ :=
    complete_ready ready { s.unrun with held := s.held.eraseIdx place }
  obtain ⟨c', last', runs', completed', entry', pulls', held', ran'⟩ :=
    complete_ready ready { s with held := s.held.eraseIdx place }
  obtain rfl : s' = last' := Option.some.inj (done.symm.trans completed')
  obtain rfl : c = c' := Option.some.inj (runs.symm.trans runs')
  have after : last.Custody := completed_custody custody found completed
  have holds : 1 ≤ s.unrun.heldBy c :=
    List.countP_pos_iff.mpr ⟨completion, here ▸ List.getElem_mem bound, decide_eq_true runs⟩
  obtain ⟨never, elsewhere⟩ := custody.held_elsewhere holds
  refine after.congr ?_ (pulls'.trans pulls.symm) (held'.trans held.symm) (ran'.trans ran.symm)
  rw [entry]
  funext v
  rw [unrun_entry, ran', congrFun entry' v]
  refine (unrun_run ?_).trans (unrun_entry s v).symm
  intro data present waiting
  apply elsewhere v
  rw [unrun_entry, show s.entry v = some data from present, Option.map_some, Option.bind_some,
    Data.unrun_of_fresh, waiting]
  intro call same
  obtain rfl : c = call := Option.some.inj (waiting.symm.trans same)
  exact List.count_eq_zero.mp never

theorem unrun_pulled (custody : s.unrun.Custody) (fresh : s.Unrun u)
    (entry : s'.entry = Function.update s.entry u (some data))
    (ofCall : data.OfCall s.pulls.length)
    (held : s'.held = s.held ++ ((s.entry u).bind Data.done).toList.map .lazyRun)
    (pulls : s'.pulls = s.pulls ++ [u]) (ran : s'.ran = s.ran) : s'.unrun.Custody := by
  have unused := (custody.unused s.pulls.length (Nat.le_refl _)).2
  have absent : s.pulls.length ∉ s.ran := List.count_eq_zero.mp unused
  have same : s'.unrun.entry = Function.update s.unrun.entry u (some data) := by
    rw [unrun_update entry ran, Option.map_some, Data.unrun_of_fresh]
    intro call waiting
    obtain rfl : s.pulls.length = call := Option.some.inj (ofCall.1.symm.trans waiting)
    exact absent
  refine pulled_custody custody same ofCall ?_ pulls ran
  rw [fresh.entry_eq]
  exact held

theorem unrun_refreshed (custody : s.unrun.Custody)
    (entry : s'.entry = Function.update s.entry u (some data))
    (old : data = { (s.entry u).getD {} with
      heartbeatTimeoutId := data.heartbeatTimeoutId, hbarg := data.hbarg })
    (polls : SamePolls s s') : s'.unrun.Custody := by
  have same : s'.unrun.entry = Function.update s.unrun.entry u (some (data.unrun s.ran)) :=
    unrun_update entry polls.ran
  refine refreshed_custody custody same ?_
    ⟨polls.pulls, polls.replies, polls.held, polls.closed, polls.ran⟩
  rw [unrun_entry]
  cases found : s.entry u with
  | none =>
      rw [found] at old
      rw [old]
      rfl
  | some before =>
      rw [found] at old
      rw [old, Option.map_some, Option.getD_some, Option.getD_some, Data.unrun_timer]

/-- A section that takes no Closure that has been run keeps every Closure in one place. -/
theorem unrun_step (custody : s.unrun.Custody) (stepped : s.step e = some s')
    (fresh : TakesUnrun s e) : s'.unrun.Custody := by
  have kept : s'.entry = s.entry ∧ SamePolls s s' → s'.unrun.Custody := by
    rintro ⟨entry, polls⟩
    refine custody.congr ?_ polls.pulls polls.held polls.ran
    funext v
    rw [unrun_entry, unrun_entry, entry, polls.ran]
  cases moves_of_step stepped with
  | @pulled u t data arms ofCall hbarg held pulls replies closed ran =>
      have fresh : s.Unrun u := fresh
      exact unrun_pulled custody fresh arms.entry ofCall held pulls ran
  | refreshed signal arms hbarg old polls => exact unrun_refreshed custody arms.entry old polls
  | @popped data msg found entry held pulls replies closed ran timers =>
      have fresh : s.Unrun msg.userId := fresh
      have same := unrun_update entry ran
      exact popped_custody custody (fresh.entry_eq.trans found) same held pulls ran
  | unserved absent same =>
      rw [same]
      exact custody
  | completed found done =>
      exact unrun_completed custody found done
  | @cleared t arg data found present entry timers held pulls replies closed ran =>
      have fresh : s.Unrun arg.userId := fresh _ found
      exact cleared_custody custody (fresh.entry_eq.trans present) (unrun_update entry ran)
        held pulls ran
  | fired _ moved => exact kept (quiet_of_mark moved)
  | vacant _ _ moved => exact kept (quiet_of_mark moved)
  | returned _ _ moved => exact kept (quiet_of_mark moved)

theorem Unrun.fields (fresh : s.Unrun u) (custody : s.unrun.Custody)
    (found : s.entry u = some data) :
    data.NoCall ∨ ∃ call, s.pulls[call]? = some u ∧ data.OfCall call :=
  custody.fields u data (fresh.entry_eq.trans found)

/-- No other entry has the Closure, so running it empties this entry and changes no other,
seen without the pointers of the calls that have been run. -/
theorem unrun_emptied (custody : s.unrun.Custody) (found : s.entry u = some data)
    (owner : s.pulls[call]? = some u) (ofCall : data.OfCall call) (fresh : s.Unrun u)
    (entry : s'.entry = s.entry) (ran : s'.ran = s.ran ++ [call]) :
    s'.unrun.entry = Function.update s.unrun.entry u
      (some { data with done := none, msgs := none, cntl := none }) := by
  have unrun : call ∉ s.ran := fresh call (by rw [found]; exact ofCall.1)
  funext v
  rw [unrun_entry, entry, ran, Function.update_apply]
  split
  · rename_i same
    rw [same, found, Option.map_some]
    simp only [Data.unrun, ofCall.1, List.mem_append, List.mem_singleton, or_true, if_true]
  · rename_i other
    rw [unrun_entry, unrun_run]
    intro there present waiting
    have stored : (s.unrun.entry v).bind Data.done = some call := by
      rw [unrun_entry, present, Option.map_some, Option.bind_some, Data.unrun_of_fresh, waiting]
      intro c same
      rwa [← Option.some.inj (waiting.symm.trans same)]
    exact other (Option.some.inj ((custody.owner stored).symm.trans owner))

/-- It is as if an operation had taken the Closure and run it at once. -/
theorem unrun_cleared (custody : s.unrun.Custody) (found : s.entry u = some data)
    (owner : s.pulls[call]? = some u) (ofCall : data.OfCall call) (fresh : s.Unrun u)
    (entry : s'.entry = s.entry) (pulls : s'.pulls = s.pulls) (held : s'.held = s.held)
    (ran : s'.ran = s.ran ++ [call]) : s'.unrun.Custody := by
  have emptied := unrun_emptied custody found owner ofCall fresh entry ran
  have stored : (s.unrun.entry u).bind Data.done = some call := by
    rw [fresh.entry_eq, found]
    exact ofCall.1
  have heldAfter : s.held ++ [Completion.lazyRun call] =
      s.unrun.held ++ ((s.unrun.entry u).bind Data.done).toList.map .lazyRun := by
    rw [stored]
    rfl
  have taken :
      Custody { s'.unrun with held := s.held ++ [.lazyRun call], ran := s.ran } := by
    refine emptied_custody custody emptied ?_ (held_of_taken (fun _ => rfl) heldAfter) ?_
      pulls rfl
    · rintro _ ⟨⟩
      exact ⟨rfl, rfl, rfl⟩
    · intro completion member
      rcases List.mem_append.mp member with old | new
      · exact custody.ready completion old
      · rw [List.mem_singleton.mp new]
        trivial
  have place : (s.held ++ [Completion.lazyRun call])[s.held.length]? = some (.lazyRun call) := by
    simp
  have after := completed_custody taken place rfl
  refine after.congr rfl rfl ?_ ran
  change s'.held = (s.held ++ [Completion.lazyRun call]).eraseIdx s.held.length
  rw [List.eraseIdx_append_of_length_le (Nat.le_refl _), Nat.sub_self, List.eraseIdx_cons_zero,
    List.append_nil, held]

theorem ran_grows (custody : s.unrun.Custody) (stepped : s.step e = some s') :
    ∀ call ∈ s.ran, call ∈ s'.ran := by
  have kept : s'.ran = s.ran → ∀ call ∈ s.ran, call ∈ s'.ran := by
    intro same call member
    rwa [same]
  cases moves_of_step stepped with
  | pulled arms ofCall hbarg held pulls replies closed ran => exact kept ran
  | refreshed signal arms hbarg old polls => exact kept polls.ran
  | popped found entry held pulls replies closed ran timers => exact kept ran
  | unserved absent same => exact kept (by rw [same])
  | completed found done =>
      obtain ⟨bound, here⟩ := List.getElem?_eq_some_iff.mp found
      obtain ⟨c, last, -, completed, -, -, -, ran⟩ :=
        complete_ready (custody.ready _ (here ▸ List.getElem_mem bound)) _
      obtain rfl : s' = last := Option.some.inj (done.symm.trans completed)
      rw [ran]
      exact fun _ member => List.mem_append_left _ member
  | cleared found present entry timers held pulls replies closed ran => exact kept ran
  | fired found moved => exact kept (quiet_of_mark moved).2.ran
  | vacant found absent moved => exact kept (quiet_of_mark moved).2.ran
  | returned found finished moved => exact kept (quiet_of_mark moved).2.ran

theorem Custody.run_once (custody : s.Custody) (done : call ∈ s.ran) :
    s.timesRun call = 1 ∧ ∀ completion ∈ s.held, ¬ completion.Uses call := by
  have positive : 1 ≤ s.timesRun call := List.count_pos_iff.mpr done
  have bound : call < s.pulls.length := by
    by_contra beyond
    have never := (custody.unused call (Nat.le_of_not_lt beyond)).2
    omega
  have once := custody.once call _ (List.getElem?_eq_getElem bound)
  refine ⟨by omega, fun completion member uses => ?_⟩
  have holds : completion.done = some call := by
    have ready := custody.ready completion member
    cases completion with
    | lazyRun other => exact congrArg some uses
    | sendtoAccess other msgs msg =>
        rcases uses with same | same
        · exact congrArg some same
        · exact (ready : msgs = some other).symm.trans same
    | clearUserData originData timer =>
        obtain ⟨c, present, msgs, cntl⟩ := ready
        rcases uses with same | same | same
        · exact same
        · exact present.trans (msgs.symm.trans same)
        · exact present.trans (cntl.symm.trans same)
  have held : 1 ≤ s.heldBy call :=
    List.countP_pos_iff.mpr ⟨completion, member, decide_eq_true holds⟩
  omega

def Pending (s : Service) (userId : Int) (call : Nat) : Prop :=
  (s.entry userId).bind Data.done = some call ∧ call ∉ s.ran

theorem Pending.stored (pending : s.Pending u call) :
    (s.unrun.entry u).bind Data.done = some call := by
  obtain ⟨waiting, fresh⟩ := pending
  obtain ⟨data, found, done⟩ := Option.bind_eq_some_iff.mp waiting
  rw [unrun_entry, found, Option.map_some, Option.bind_some, Data.unrun_of_fresh, done]
  intro other same
  obtain rfl := Option.some.inj (done.symm.trans same)
  exact fresh

theorem pending_iff : s.Pending u call ↔ s.unrun.storedAt u call = 1 := by
  constructor
  · intro pending
    exact if_pos pending.stored
  · intro stored
    by_contra other
    refine absurd stored ?_
    rw [storedAt, if_neg]
    · exact Nat.zero_ne_one
    · intro here
      apply other
      rw [unrun_entry] at here
      obtain ⟨_, mapped, done⟩ := Option.bind_eq_some_iff.mp here
      obtain ⟨data, found, rfl⟩ := Option.map_eq_some_iff.mp mapped
      simp only [Data.unrun] at done
      split at done
      · rename_i c waiting
        split at done
        · cases done
        · rename_i fresh
          obtain rfl : c = call := Option.some.inj (waiting.symm.trans done)
          exact ⟨by rw [found]; exact waiting, fresh⟩
      · rename_i nothing
        rw [nothing] at done
        cases done

theorem Unrun.congr (entry : s'.entry u = s.entry u) (ran : s'.ran = s.ran)
    (fresh : s.Unrun u) : s'.Unrun u := by
  rw [Unrun, entry, ran]
  exact fresh

theorem Unrun.completed (fresh : s.Unrun u) (custody : s.unrun.Custody)
    (held : 1 ≤ s.heldBy call) (entry : s'.entry u = s.entry u)
    (ran : s'.ran = s.ran ++ [call]) : s'.Unrun u := by
  intro other waiting member
  rw [entry] at waiting
  rw [ran] at member
  rcases List.mem_append.mp member with old | new
  · exact fresh other waiting old
  · rw [List.mem_singleton.mp new] at waiting
    refine (custody.held_elsewhere held).2 u ?_
    rw [fresh.entry_eq]
    exact waiting

/-- The entry has a call that waits. -/
def Tested (s : Service) (userId : Int) : Prop :=
  s.Unrun userId ∧ ((s.entry userId).bind Data.msgs).isSome

theorem Pending.tested (pending : s.Pending u call) (custody : s.unrun.Custody) : s.Tested u := by
  obtain ⟨data, found, done⟩ := Option.bind_eq_some_iff.mp pending.1
  have fresh : s.Unrun u := by
    intro other waiting
    obtain rfl := Option.some.inj (pending.1.symm.trans waiting)
    exact pending.2
  refine ⟨fresh, ?_⟩
  rcases fresh.fields custody found with ⟨nothing, -⟩ | ⟨c, -, -, msgs, -⟩
  · rw [nothing] at done
    cases done
  · rw [found, Option.bind_some, msgs]
    rfl

theorem Tested.fields (tested : s.Tested u) (custody : s.unrun.Custody) :
    ∃ data call, s.entry u = some data ∧ s.pulls[call]? = some u ∧ data.OfCall call := by
  obtain ⟨fresh, waiting⟩ := tested
  obtain ⟨msgs, waiting⟩ := Option.isSome_iff_exists.mp waiting
  obtain ⟨data, found, present⟩ := Option.bind_eq_some_iff.mp waiting
  rcases fresh.fields custody found with ⟨-, nothing, -⟩ | ⟨call, owner, ofCall⟩
  · rw [nothing] at present
    cases present
  · exact ⟨data, call, found, owner, ofCall⟩

theorem Tested.congr (entry : s'.entry u = s.entry u) (ran : s'.ran = s.ran)
    (tested : s.Tested u) : s'.Tested u := by
  refine ⟨tested.1.congr entry ran, ?_⟩
  rw [entry]
  exact tested.2

/-- Only a push to the user and the eviction of its entry take its Closure away; a poll puts
in another one. -/
theorem Tested.step (tested : s.Tested u) (custody : s.unrun.Custody)
    (stepped : s.step e = some s') (push : ∀ msg, e = .sendtoAccess msg → msg.userId ≠ u)
    (evicted : ∀ t task, e = .clearUserData t → s.timers t = some task →
      task.argument.userId ≠ u) : s'.Tested u := by
  have quiet : s'.entry = s.entry ∧ SamePolls s s' → s'.Tested u := by
    rintro ⟨entry, polls⟩
    exact tested.congr (congrFun entry u) polls.ran
  cases moves_of_step stepped with
  | @pulled v t data arms ofCall hbarg held pulls replies closed ran =>
      by_cases same : u = v
      · subst same
        have here : s'.entry u = some data := by rw [arms.entry, Function.update_self]
        refine ⟨?_, by rw [here, Option.bind_some, ofCall.2.1]; rfl⟩
        intro call waiting
        rw [here, Option.bind_some, ofCall.1] at waiting
        rw [ran, ← Option.some.inj waiting]
        exact List.count_eq_zero.mp (custody.unused _ (Nat.le_refl _)).2
      · exact tested.congr (by rw [arms.entry, Function.update_of_ne same]) ran
  | @refreshed _ v t data signal arms hbarg old polls =>
      by_cases same : u = v
      · subst same
        obtain ⟨before, call, found, -, ofCall⟩ := tested.fields custody
        rw [found, Option.getD_some] at old
        have here : s'.entry u = some data := by rw [arms.entry, Function.update_self]
        have done : data.done = some call := by rw [old]; exact ofCall.1
        refine ⟨?_, by rw [here, Option.bind_some, old, ofCall.2.1]; rfl⟩
        intro other waiting
        rw [here, Option.bind_some, done] at waiting
        rw [polls.ran]
        refine tested.1 other ?_
        rw [found, Option.bind_some, ofCall.1]
        exact waiting
      · exact tested.congr (by rw [arms.entry, Function.update_of_ne same]) polls.ran
  | popped found entry held pulls replies closed ran timers =>
      exact tested.congr (by rw [entry, Function.update_of_ne (push _ rfl).symm]) ran
  | unserved absent same =>
      rw [same]
      exact tested
  | completed found done =>
      obtain ⟨bound, here⟩ := List.getElem?_eq_some_iff.mp found
      obtain ⟨c, last, runs, completed, entry, -, -, ran⟩ :=
        complete_ready (custody.ready _ (here ▸ List.getElem_mem bound)) _
      obtain rfl : s' = last := Option.some.inj (done.symm.trans completed)
      have held : 1 ≤ s.heldBy c :=
        List.countP_pos_iff.mpr ⟨_, here ▸ List.getElem_mem bound, decide_eq_true runs⟩
      refine ⟨tested.1.completed custody held (congrFun entry u) ran, ?_⟩
      rw [entry]
      exact tested.2
  | cleared found present entry timers held pulls replies closed ran =>
      exact tested.congr (by
        rw [entry, Function.update_of_ne (evicted _ _ rfl found).symm]) ran
  | fired _ moved => exact quiet (quiet_of_mark moved)
  | vacant _ _ moved => exact quiet (quiet_of_mark moved)
  | returned _ _ moved => exact quiet (quiet_of_mark moved)

theorem pending_before (custody : s.unrun.Custody) (stepped : s.step e = some s')
    (owner : s.pulls[call]? = some u) (pending : s'.Pending u call) : s.Pending u call := by
  have grown := ran_grows custody stepped
  obtain ⟨waiting, fresh⟩ := pending
  refine ⟨?_, fun done => fresh (grown call done)⟩
  have quiet : s'.entry = s.entry → (s.entry u).bind Data.done = some call := by
    intro entry
    rwa [← entry]
  cases moves_of_step stepped with
  | @pulled v t data arms ofCall hbarg held pulls replies closed ran =>
      rw [arms.entry, Function.update_apply] at waiting
      split at waiting
      · rw [Option.bind_some, ofCall.1] at waiting
        have bound := (List.getElem?_eq_some_iff.mp owner).1
        have := Option.some.inj waiting
        omega
      · exact waiting
  | @refreshed _ v t data signal arms hbarg old polls =>
      rw [arms.entry, Function.update_apply] at waiting
      split at waiting
      · rename_i same
        subst same
        rw [Option.bind_some, old] at waiting
        cases found : s.entry u with
        | none =>
            rw [found] at waiting
            cases waiting
        | some before =>
            rw [found] at waiting
            exact waiting
      · exact waiting
  | popped found entry held pulls replies closed ran timers =>
      rw [entry, Function.update_apply] at waiting
      split at waiting
      · cases waiting
      · exact waiting
  | unserved absent same => exact quiet (by rw [same])
  | completed found done => exact quiet (complete_same done).1
  | cleared found present entry timers held pulls replies closed ran =>
      rw [entry, Function.update_apply] at waiting
      split at waiting
      · cases waiting
      · exact waiting
  | fired _ moved => exact quiet (quiet_of_mark moved).1
  | vacant _ _ moved => exact quiet (quiet_of_mark moved).1
  | returned _ _ moved => exact quiet (quiet_of_mark moved).1

end Service
end Tinyim.Access
