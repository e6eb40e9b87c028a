import Mathlib.Data.List.Count
import Tinyim.Access.Watch

/-! Who deletes a timer's argument: the section that cancels the timer, which takes it
to be the entry's `hbarg`, or the handler that returns. PullData arms a timer and does
not store its argument. -/
namespace Tinyim.Access
open Transition OneShotTimers

def Event.isPullData : Event → Bool
  | .pullData _ _ => true
  | _ => false

def Polled (es : List Event) (timer : Nat) : Prop := ∃ u, Event.pullData u timer ∈ es

namespace Service
variable {s s' : Service} {u v : Int} {t : Nat} {arg : HeartBeatTimeoutArg} {status : Status}
  {polled : Nat → Prop} {held : HeartBeatTimeoutArg} {now : Status}

/-- Every argument was deleted once if its timer was cancelled or its handler has returned,
and not at all before. -/
def DeletedOnce (s : Service) : Prop :=
  ∀ t arg status, s.timers t = some { argument := arg, status := status } →
    s.disposed.count arg.allocation = if status.settled then 1 else 0

/-- The `hbarg` of an entry is moreover the argument of its pending timer. -/
structure ArgsOwned (s : Service) : Prop where
  hbarg : ∀ u data arg, s.entry u = some data →
    s.timers data.heartbeatTimeoutId = some { argument := arg, status := .pending } →
      data.hbarg = some arg.allocation
  disposed : s.DeletedOnce

/-- Each timer has an argument of its own. -/
structure Allocations (s : Service) : Prop where
  allocated : ∀ t arg status, s.timers t = some { argument := arg, status := status } →
    arg.allocation < s.allocated
  distinct : ∀ t t' arg arg' status status',
    s.timers t = some { argument := arg, status := status } →
      s.timers t' = some { argument := arg', status := status' } →
        arg.allocation = arg'.allocation → t = t'
  unused : ∀ k, s.allocated ≤ k → s.disposed.count k = 0

/-- Where the arguments are stored when PullData armed the timers `polled`. -/
structure Stored (polled : Nat → Prop) (s : Service) : Prop where
  allocations : s.Allocations
  armed : ∀ t, polled t → s.timers t ≠ none
  hbarg : ∀ u data arg status, s.entry u = some data →
    s.timers data.heartbeatTimeoutId = some { argument := arg, status := status } →
      ¬ polled data.heartbeatTimeoutId → data.hbarg = some arg.allocation
  stored : ∀ u data k, s.entry u = some data → data.hbarg = some k → k < s.allocated ∧
    ∀ t arg status, polled t → s.timers t = some { argument := arg, status := status } →
      arg.allocation ≠ k

/-- And how often they were deleted. -/
structure Ledger (polled : Nat → Prop) (s : Service) : Prop extends s.Stored polled where
  returned : ∀ t arg status, polled t →
    s.timers t = some { argument := arg, status := status } →
      s.disposed.count arg.allocation = if status = .finished then 1 else 0
  deleted : (∀ t arg, polled t →
      s.timers t ≠ some { argument := arg, status := .cancelled }) →
    ∀ t arg status, ¬ polled t → s.timers t = some { argument := arg, status := status } →
      s.disposed.count arg.allocation = if status.settled then 1 else 0

theorem mark_back (found : s.timers t = some { argument := arg, status := before })
    (timer : (s.mark t arg status).timers t' = some { argument := held, status := now }) :
    ∃ was, s.timers t' = some { argument := held, status := was } ∧
      (t' = t ∧ held = arg ∧ now = status ∨ t' ≠ t ∧ now = was) := by
  obtain ⟨rfl, same⟩ | ⟨other, old⟩ := mark_cases timer
  · cases same
    exact ⟨before, found, Or.inl ⟨rfl, rfl, rfl⟩⟩
  · exact ⟨now, old, Or.inr ⟨other, rfl⟩⟩

theorem Allocations.mark (allocations : s.Allocations)
    (found : s.timers t = some { argument := arg, status := before }) (deleted : List Nat)
    (known : ∀ k ∈ deleted, k < s.allocated) :
    ({ s.mark t arg status with disposed := s.disposed ++ deleted }).Allocations := by
  constructor
  · intro t' held now timer
    obtain ⟨was, old, -⟩ := mark_back found timer
    exact allocations.allocated t' held was old
  · intro t' t'' held held' now now' timer timer' same
    obtain ⟨was, old, -⟩ := mark_back found timer
    obtain ⟨was', old', -⟩ := mark_back found timer'
    exact allocations.distinct _ _ _ _ _ _ old old' same
  · intro k beyond
    have bound : s.allocated ≤ k := beyond
    rw [List.count_append, allocations.unused k bound, Nat.zero_add, List.count_eq_zero]
    intro member
    exact absurd (known k member) (Nat.not_lt.mpr bound)

theorem Stored.mark (stored : s.Stored polled)
    (found : s.timers t = some { argument := arg, status := before }) (deleted : List Nat)
    (known : ∀ k ∈ deleted, k < s.allocated) :
    ({ s.mark t arg status with disposed := s.disposed ++ deleted }).Stored polled := by
  constructor
  · exact stored.allocations.mark found deleted known
  · intro t' was
    by_cases same : t' = t
    · rw [same]
      exact mark_self ▸ nofun
    · exact (mark_other same).symm ▸ stored.armed t' was
  · intro u data held now present timer
    obtain ⟨was, old, -⟩ := mark_back found timer
    exact stored.hbarg u data held was present old
  · intro u data k present held
    obtain ⟨bound, others⟩ := stored.stored u data k present held
    refine ⟨bound, ?_⟩
    intro t' arg now mine timer
    obtain ⟨was, old, -⟩ := mark_back found timer
    exact others t' arg was mine old

theorem Allocations.elsewhere (allocations : s.Allocations)
    (found : s.timers t = some { argument := arg, status := before })
    (old : s.timers t' = some { argument := held, status := was }) (other : t' ≠ t)
    (settled : Bool) :
    (s.disposed ++ if settled then [arg.allocation] else []).count held.allocation =
      s.disposed.count held.allocation := by
  have different : arg.allocation ≠ held.allocation := fun same =>
    other (allocations.distinct _ _ _ _ _ _ old found same.symm)
  rw [List.count_append]
  cases settled <;> simp [different]

/-- A timer moves on, and whoever settles it deletes its argument. -/
theorem Ledger.moved (ledger : s.Ledger polled)
    (found : s.timers t = some { argument := arg, status := before })
    (unsettled : before.settled = false) (status : Status)
    (kept : polled t → status ≠ .cancelled) :
    ({ s.mark t arg status with
      disposed := s.disposed ++ if status.settled then [arg.allocation] else [] }).Ledger
      polled := by
  constructor
  · apply ledger.toStored.mark found
    intro k member
    split at member
    · rw [List.mem_singleton.mp member]
      exact ledger.allocations.allocated t arg before found
    · contradiction
  · intro t' held now mine timer
    obtain ⟨was, old, ⟨rfl, rfl, rfl⟩ | ⟨other, rfl⟩⟩ := mark_back found timer
    · have undeleted := ledger.returned t' held before mine found
      rw [if_neg (by rintro rfl; contradiction)] at undeleted
      rw [List.count_append, undeleted]
      cases now with
      | cancelled => exact absurd rfl (kept mine)
      | pending | running | leaving | finished => simp [Status.settled]
    · rw [← ledger.returned t' held now mine old]
      exact ledger.allocations.elsewhere found old other status.settled
  · intro uncancelled t' held now mine timer
    have still : ∀ t arg, polled t →
        s.timers t ≠ some { argument := arg, status := .cancelled } := by
      intro t'' other mine' cancelled
      by_cases same : t'' = t
      · rw [same, found] at cancelled
        cases cancelled
        contradiction
      · exact uncancelled t'' other mine' ((mark_other same).trans cancelled)
    obtain ⟨was, old, ⟨rfl, rfl, rfl⟩ | ⟨other, rfl⟩⟩ := mark_back found timer
    · have undeleted := ledger.deleted still t' held before mine found
      rw [unsettled, if_neg Bool.false_ne_true] at undeleted
      rw [List.count_append, undeleted]
      cases now.settled <;> simp
    · rw [← ledger.deleted still t' held now mine old]
      exact ledger.allocations.elsewhere found old other status.settled

theorem Ledger.cancelled (ledger : s.Ledger polled) (mine : polled t)
    (found : s.timers t = some { argument := arg, status := .pending }) (deleted : List Nat)
    (others : ∀ k ∈ deleted, k < s.allocated ∧ ∀ t arg status, polled t →
      s.timers t = some { argument := arg, status := status } → arg.allocation ≠ k) :
    ({ s.mark t arg .cancelled with disposed := s.disposed ++ deleted }).Ledger polled := by
  constructor
  · exact ledger.toStored.mark found deleted fun k member => (others k member).1
  · intro t' held now mine' timer
    obtain ⟨was, old, moved⟩ := mark_back found timer
    have undeleted : deleted.count held.allocation = 0 := by
      rw [List.count_eq_zero]
      intro member
      exact (others _ member).2 t' held was mine' old rfl
    rw [List.count_append, undeleted, ledger.returned t' held was mine' old]
    obtain ⟨rfl, rfl, rfl⟩ | ⟨-, rfl⟩ := moved
    · rw [found] at old
      cases old
      rfl
    · rfl
  · intro uncancelled
    exact absurd mark_self (uncancelled t arg mine)

/-- The del of a section deletes the `hbarg` of the entry whose timer it cancels. -/
theorem Ledger.dropTimer (ledger : s.Ledger polled) (u : Int) : (s.dropTimer u).Ledger polled := by
  obtain ⟨data, arg, present, -, armed, -, same⟩ | ⟨same, -, -⟩ := dropTimer_cases s u
  · rw [same]
    by_cases mine : polled data.heartbeatTimeoutId
    · apply ledger.cancelled mine armed
      intro k member
      exact ledger.stored u data k present (Option.mem_toList.mp member)
    · rw [ledger.hbarg u data arg .pending present armed mine]
      exact ledger.moved armed rfl .cancelled fun polled => absurd polled mine
  · rw [same]
    exact ledger

theorem dropTimer_allocated (s : Service) (u : Int) :
    (s.dropTimer u).allocated = s.allocated := by
  rw [dropTimer_kept]

theorem arms_allocations (before : (s.dropTimer u).Allocations) (arms : Arms s s' u t data) :
    s'.Allocations := by
  have allocated := dropTimer_allocated s u
  have below : ∀ t' held now, (s.dropTimer u).timers t' =
      some { argument := held, status := now } → held.allocation < s.allocated :=
    fun t' held now timer => allocated ▸ before.allocated t' held now timer
  constructor
  · intro t' held now timer
    rw [arms.allocated]
    obtain ⟨-, new⟩ | ⟨-, old⟩ := arms.timer_cases timer
    · cases new
      exact Nat.lt_succ_self _
    · exact Nat.lt_succ_of_lt (below t' held now old)
  · intro t' t'' held held' now now' timer timer' equal
    obtain ⟨rfl, new⟩ | ⟨-, old⟩ := arms.timer_cases timer
    · obtain ⟨rfl, -⟩ | ⟨-, old'⟩ := arms.timer_cases timer'
      · rfl
      · cases new
        exact absurd equal.symm (Nat.ne_of_lt (below t'' held' now' old'))
    · obtain ⟨-, new'⟩ | ⟨-, old'⟩ := arms.timer_cases timer'
      · cases new'
        exact absurd equal (Nat.ne_of_lt (below t' held now old))
      · exact before.distinct _ _ _ _ _ _ old old' equal
  · intro k beyond
    rw [arms.allocated] at beyond
    rw [arms.disposed]
    exact before.unused k (allocated ▸ Nat.le_of_succ_le beyond)

theorem arms_stored {after : Nat → Prop} (before : (s.dropTimer u).Stored polled)
    (arms : Arms s s' u t data) (same : ∀ t', t' ≠ t → (after t' ↔ polled t'))
    (hbarg : ¬ after t ∧ data.hbarg = some s.allocated ∨ after t ∧ data.hbarg = s.keptArg u)
    (present : s'.entry v = some found) (stored : found.hbarg = some k) :
    k < s'.allocated ∧ ∀ t arg status, after t →
      s'.timers t = some { argument := arg, status := status } → arg.allocation ≠ k := by
  have entry := arms.entry_dropped
  have allocated := dropTimer_allocated s u
  rw [arms.allocated]
  -- An argument stored before is older than the new one.
  have older : ∀ data, (s.dropTimer u).entry v = some data → data.hbarg = some k →
      k < s.allocated + 1 ∧ ∀ t arg status, after t →
        s'.timers t = some { argument := arg, status := status } → arg.allocation ≠ k := by
    intro data present stored
    obtain ⟨bound, apart⟩ := before.stored v data k present stored
    rw [allocated] at bound
    refine ⟨Nat.lt_succ_of_lt bound, ?_⟩
    intro t' held now mine timer
    obtain ⟨-, new⟩ | ⟨other, old⟩ := arms.timer_cases timer
    · cases new
      exact Nat.ne_of_gt bound
    · exact apart t' held now ((same t' other).mp mine) old
  obtain ⟨rfl, new⟩ | ⟨-, present⟩ := entry_cases entry present
  · cases new
    obtain ⟨unpolled, reset⟩ | ⟨-, kept⟩ := hbarg
    · rw [reset] at stored
      cases stored
      refine ⟨Nat.lt_succ_self _, ?_⟩
      intro t' held now mine timer
      obtain ⟨rfl, -⟩ | ⟨-, old⟩ := arms.timer_cases timer
      · exact absurd mine unpolled
      · have bound := before.allocations.allocated t' held now old
        exact Nat.ne_of_lt (allocated ▸ bound)
    · rw [kept] at stored
      obtain ⟨_, _, -, -, -, nothing, -⟩ | ⟨-, left, -⟩ := dropTimer_cases s v
      · rw [nothing] at stored
        contradiction
      · rw [left] at stored
        obtain ⟨old, there, stored⟩ := Option.bind_eq_some_iff.mp stored
        exact older old (by rw [dropTimer_entry, there]) stored
  · exact older found present stored

theorem arms_keeps_stored {after : Nat → Prop} (before : (s.dropTimer u).Stored polled)
    (watched : s.Watched) (arms : Arms s s' u t data)
    (same : ∀ t', t' ≠ t → (after t' ↔ polled t'))
    (hbarg : ¬ after t ∧ data.hbarg = some s.allocated ∨ after t ∧ data.hbarg = s.keptArg u) :
    s'.Stored after := by
  have tracked := (watched.tracked.dropTimer u).1
  have entry := arms.entry_dropped
  constructor
  · exact arms_allocations before.allocations arms
  · intro t' mine
    by_cases new : t' = t
    · rw [new, arms.armed]
      exact nofun
    · rw [arms.added.2.2, Function.update_of_ne new]
      exact before.armed t' ((same t' new).mp mine)
  · intro v found held now present timer unpolled
    obtain ⟨rfl, new⟩ | ⟨-, present⟩ := entry_cases entry present
    · cases new
      rw [arms.named, arms.armed] at timer
      cases timer
      rw [arms.named] at unpolled
      obtain ⟨-, reset⟩ | ⟨mine, -⟩ := hbarg
      · exact reset
      · exact absurd mine unpolled
    · obtain ⟨rfl, -⟩ | ⟨other, old⟩ := arms.timer_cases timer
      · obtain ⟨_, _, old, -⟩ := tracked.owner v found present
        rw [arms.added.2.1] at old
        contradiction
      · exact before.hbarg v found held now present old fun mine =>
          unpolled ((same _ other).mpr mine)
  · exact fun _ _ _ present stored => arms_stored before arms same hbarg present stored

theorem arms_ledger {after : Nat → Prop} (ledger : s.Ledger polled) (watched : s.Watched)
    (arms : Arms s s' u t data) (same : ∀ t', t' ≠ t → (after t' ↔ polled t'))
    (hbarg : ¬ after t ∧ data.hbarg = some s.allocated ∨ after t ∧ data.hbarg = s.keptArg u) :
    s'.Ledger after := by
  have before := ledger.dropTimer u
  have allocated := dropTimer_allocated s u
  constructor
  · exact arms_keeps_stored before.toStored watched arms same hbarg
  · intro t' held now mine timer
    rw [arms.disposed]
    obtain ⟨-, new⟩ | ⟨other, old⟩ := arms.timer_cases timer
    · cases new
      exact before.allocations.unused s.allocated (Nat.le_of_eq allocated)
    · exact before.returned t' held now ((same t' other).mp mine) old
  · intro uncancelled t' held now unpolled timer
    rw [arms.disposed]
    obtain ⟨-, new⟩ | ⟨other, old⟩ := arms.timer_cases timer
    · cases new
      exact before.allocations.unused s.allocated (Nat.le_of_eq allocated)
    · refine before.deleted ?_ t' held now (fun mine => unpolled ((same t' other).mpr mine)) old
      intro t'' arg mine cancelled
      by_cases new : t'' = t
      · rw [new, arms.added.2.1] at cancelled
        contradiction
      · apply uncancelled t'' arg ((same t'' new).mpr mine)
        rw [arms.added.2.2, Function.update_of_ne new, cancelled]

theorem kept_ledger (ledger : s.Ledger polled)
    (entries : ∀ v data, s'.entry v = some data → ∃ old, s.entry v = some old ∧
      data.heartbeatTimeoutId = old.heartbeatTimeoutId ∧ data.hbarg = old.hbarg)
    (timers : SameTimers s s') : s'.Ledger polled := by
  constructor
  · constructor
    · constructor
      · rw [timers.timers, timers.allocated]
        exact ledger.allocations.allocated
      · rw [timers.timers]
        exact ledger.allocations.distinct
      · rw [timers.allocated, timers.disposed]
        exact ledger.allocations.unused
    · rw [timers.timers]
      exact ledger.armed
    · intro v data held now present timer unpolled
      obtain ⟨old, there, named, hbarg⟩ := entries v data present
      rw [timers.timers, named] at timer
      rw [hbarg]
      exact ledger.hbarg v old held now there timer (named ▸ unpolled)
    · intro v data k present stored
      obtain ⟨old, there, -, hbarg⟩ := entries v data present
      rw [timers.timers, timers.allocated]
      exact ledger.stored v old k there (hbarg ▸ stored)
  · rw [timers.timers, timers.disposed]
    exact ledger.returned
  · rw [timers.timers, timers.disposed]
    exact ledger.deleted

theorem polled_append {es : List Event} {e : Event} :
    Polled (es ++ [e]) t ↔ Polled es t ∨ ∃ u, e = .pullData u t := by
  simp only [Polled, List.mem_append, List.mem_singleton, exists_or, eq_comm]

theorem polled_other {es : List Event} {e : Event} (other : e.isPullData = false) :
    Polled (es ++ [e]) = Polled es := by
  funext t
  rw [eq_iff_iff, polled_append, or_iff_left]
  rintro ⟨u, rfl⟩
  contradiction

theorem step_ledger (ledger : s.Ledger (Polled es)) (watched : s.Watched)
    (stepped : s.step e = some s') : s'.Ledger (Polled (es ++ [e])) := by
  have left : ∀ {t arg before}, s.timers t = some { argument := arg, status := before } →
      before.settled = false → ∀ status, status.settled = false →
        (s.mark t arg status).Ledger (Polled es) := by
    intro t arg before found unsettled status open_
    have moved := ledger.moved found unsettled status (by rintro - rfl; contradiction)
    rw [open_, if_neg Bool.false_ne_true, List.append_nil] at moved
    exact moved
  cases moves_of_step stepped with
  | @pulled u t data arms _ hbarg _ _ _ _ _ =>
      refine arms_ledger ledger watched arms ?_ (Or.inr ⟨?_, hbarg⟩)
      · intro t' other
        rw [polled_append, or_iff_left]
        rintro ⟨u', same⟩
        cases same
        exact other rfl
      · exact polled_append.mpr (Or.inr ⟨u, rfl⟩)
  | @refreshed e u t data signal arms hbarg _ _ =>
      rw [polled_other (by rcases signal with rfl | rfl <;> rfl)]
      refine arms_ledger ledger watched arms (fun _ _ => Iff.rfl) (Or.inl ⟨?_, hbarg⟩)
      intro mine
      exact (ledger.dropTimer u).armed t mine arms.added.2.1
  | @popped data msg found entry _ _ _ _ _ timers =>
      rw [polled_other rfl]
      refine kept_ledger ledger ?_ timers
      intro v data' present
      obtain ⟨rfl, new⟩ | ⟨-, old⟩ := entry_cases entry present
      · cases new
        exact ⟨data, found, rfl, rfl⟩
      · exact ⟨data', old, rfl, rfl⟩
  | unserved _ same =>
      rw [same, polled_other rfl]
      exact ledger
  | completed _ done =>
      rw [polled_other rfl]
      obtain ⟨entry, -, timers⟩ := complete_same done
      refine kept_ledger ledger ?_ ⟨timers.timers, timers.disposed, timers.allocated⟩
      intro v data present
      rw [entry] at present
      exact ⟨data, present, rfl, rfl⟩
  | fired found moved =>
      rw [moved, polled_other rfl]
      exact left found rfl .running rfl
  | @cleared t arg data found present entry timers _ _ _ _ _ =>
      rw [polled_other rfl]
      refine kept_ledger ((left found rfl .leaving rfl).dropTimer arg.userId) ?_ timers
      intro v data' there
      obtain ⟨-, gone⟩ | ⟨-, old⟩ := entry_cases entry there
      · contradiction
      · rw [dropTimer_entry]
        exact ⟨data', old, rfl, rfl⟩
  | vacant found _ moved =>
      rw [moved, polled_other rfl]
      exact left found rfl .leaving rfl
  | returned found _ moved =>
      rw [moved, polled_other rfl]
      exact ledger.moved found rfl .finished nofun

theorem initial_ledger : Ledger (Polled []) {} := by
  have unpolled : ∀ t, ¬ Polled [] t := fun t ⟨u, member⟩ => List.not_mem_nil member
  constructor
  · constructor
    · constructor
      · intro t arg status timer
        contradiction
      · intro t t' arg arg' status status' timer
        contradiction
      · exact fun _ _ => rfl
    · exact fun t mine => absurd mine (unpolled t)
    · intro u data arg status present timer
      contradiction
    · intro u data k present
      exact absurd ((entry_initial u).symm.trans present) nofun
  · intro t arg status mine
    exact absurd mine (unpolled t)
  · intro _ t arg status unpolled timer
    contradiction

theorem run_ledger (run : Run step AnyOrder {} es s) : s.Ledger (Polled es) ∧ s.Watched :=
  run.history (fun es s => s.Ledger (Polled es) ∧ s.Watched)
    (fun before _ stepped =>
      ⟨step_ledger before.1 before.2 stepped, step_watched before.2 stepped⟩)
    ⟨initial_ledger, initial_watched⟩

/-- PullData leaves an `hbarg` that is not the argument of the timer it armed. -/
theorem pulled_unowned (ledger : s.Ledger polled)
    (stepped : s.step (.pullData u t) = some s') : ¬ s'.ArgsOwned := by
  intro owned
  cases moves_of_step stepped with
  | refreshed signal => exact signal.elim nofun nofun
  | pulled arms _ hbarg _ _ _ _ _ =>
      have stored := owned.hbarg u _ _ (by rw [arms.entry, Function.update_self])
        (by rw [arms.named, arms.armed])
      rw [hbarg] at stored
      obtain ⟨_, _, -, -, -, nothing, -⟩ | ⟨-, kept, -⟩ := dropTimer_cases s u
      · rw [nothing] at stored
        contradiction
      · -- What the entry kept is an argument that was there before.
        rw [kept] at stored
        obtain ⟨data, present, old⟩ := Option.bind_eq_some_iff.mp stored
        exact absurd (ledger.stored u data _ present old).1 (Nat.lt_irrefl _)

theorem Ledger.deletedOnce_iff (ledger : s.Ledger polled) :
    s.DeletedOnce ↔ ∀ t arg, polled t →
      s.timers t ≠ some { argument := arg, status := .cancelled } := by
  constructor
  · intro once t arg mine cancelled
    have never := ledger.returned t arg .cancelled mine cancelled
    rw [once t arg .cancelled cancelled] at never
    contradiction
  · intro uncancelled t arg status timer
    by_cases mine : polled t
    · rw [ledger.returned t arg status mine timer]
      cases status with
      | cancelled => exact absurd timer (uncancelled t arg mine)
      | pending | running | leaving | finished => rfl
    · exact ledger.deleted uncancelled t arg status mine timer

/-- The arguments are owned in every state of a run exactly when it executes no PullData,
and they are deleted once exactly when no timer of a PullData has been cancelled. -/
theorem timer_args_owned_iff (run : Run step AnyOrder {} es s) :
    ((∀ front back s', es = front ++ back → Run step AnyOrder {} front s' → s'.ArgsOwned) ↔
      ∀ e ∈ es, e.isPullData = false) ∧
    (s.DeletedOnce ↔ ∀ u t arg, .pullData u t ∈ es →
      s.timers t ≠ some { argument := arg, status := .cancelled }) := by
  constructor
  · constructor
    · intro owned e member
      cases e with
      | pullData u t =>
          obtain ⟨front, back, rfl⟩ := List.append_of_mem member
          obtain ⟨middle, early, late⟩ := run.split
          cases late with
          | @next _ _ after _ _ _ stepped rest =>
              refine absurd (owned (front ++ [.pullData u t]) back after (by simp) ?_)
                (pulled_unowned (run_ledger early).1 stepped)
              exact early.trans (.next trivial stepped (.refl after))
      | _ => rfl
    · rintro others front back s' rfl early
      have ledger := (run_ledger early).1
      have unpolled : ∀ t, ¬ Polled front t := by
        rintro t ⟨u, member⟩
        exact absurd (others _ (List.mem_append_left back member)) nofun
      constructor
      · intro u data arg present timer
        exact ledger.hbarg u data arg .pending present timer (unpolled _)
      · exact ledger.deletedOnce_iff.mpr fun t _ mine => absurd mine (unpolled t)
  · rw [(run_ledger run).1.deletedOnce_iff]
    constructor
    · intro uncancelled u t arg member
      exact uncancelled t arg ⟨u, member⟩
    · rintro uncancelled t arg ⟨u, member⟩
      exact uncancelled u t arg member

/-- Heartbeats around a handler that has fired and lost the race for the lock. -/
def heartBeatRace : List Event :=
  [.heartBeat 7 1, .heartBeat 7 2, .fire 2, .sendMsg 7 3, .clearUserData 2, .handlerReturns 2]

/-- A poll that times out. -/
def pollTimesOut : List Event :=
  [.pullData 7 1, .fire 1, .clearUserData 1, .complete 0, .handlerReturns 1]

theorem timer_args_owned_iff_race :
    (∃ s, Run step AnyOrder {} heartBeatRace s ∧ s.disposed = [0, 2, 1] ∧ s.ArgsOwned) ∧
    ∃ s, Run step AnyOrder {} pollTimesOut s ∧ s.disposed = [0] ∧ s.DeletedOnce := by
  constructor
  · obtain ⟨s, run, deleted⟩ : ∃ s, Run step AnyOrder {} heartBeatRace s ∧ _ :=
      Run.of_check step (fun _ _ => true) {} heartBeatRace
        (fun s => decide (s.disposed = [0, 2, 1])) (fun _ _ _ => trivial) (by decide)
    exact ⟨s, run, of_decide_eq_true deleted,
      (timer_args_owned_iff run).1.mpr (by decide) heartBeatRace [] s rfl run⟩
  · obtain ⟨s, run, deleted⟩ : ∃ s, Run step AnyOrder {} pollTimesOut s ∧ _ :=
      Run.of_check step (fun _ _ => true) {} pollTimesOut
        (fun s => decide (s.disposed = [0] ∧ (s.timers 1).map Task.status = some .finished))
        (fun _ _ _ => trivial) (by decide)
    obtain ⟨deleted, finished⟩ := of_decide_eq_true deleted
    refine ⟨s, run, deleted, (timer_args_owned_iff run).2.mpr ?_⟩
    intro u t arg member cancelled
    obtain ⟨rfl, rfl⟩ : u = 7 ∧ t = 1 := by simpa [pollTimesOut] using member
    rw [cancelled] at finished
    cases finished

/-- Poll, then heartbeat: the timer is cancelled and its argument 0 is never deleted.
Heartbeat, fire, poll, heartbeat: argument 0 is deleted under its running handler, and again. -/
theorem poll_breaks_ownership :
    (∃ s, Run step AnyOrder {} [.pullData 7 1, .heartBeat 7 2] s ∧
      s.timers 1 = some { argument := { userId := 7, allocation := 0 }, status := .cancelled } ∧
      s.disposed = [] ∧ ¬ s.ArgsOwned) ∧
    ∃ s, Run step AnyOrder {} [.heartBeat 7 1, .fire 1, .pullData 7 2, .heartBeat 7 3,
        .clearUserData 1, .complete 0, .handlerReturns 1] s ∧
      s.disposed.count 0 = 2 ∧ ¬ s.ArgsOwned := by
  constructor
  · obtain ⟨s, run, left⟩ : ∃ s, Run step AnyOrder {} [.pullData 7 1, .heartBeat 7 2] s ∧ _ :=
      Run.of_check step (fun _ _ => true) {} _
        (fun s => decide (s.timers 1 = some { argument := ⟨7, 0⟩, status := .cancelled } ∧
          s.disposed = [])) (fun _ _ _ => trivial) (by decide)
    obtain ⟨cancelled, nothing⟩ := of_decide_eq_true left
    refine ⟨s, run, cancelled, nothing, ?_⟩
    intro owned
    have once := owned.disposed 1 _ _ cancelled
    rw [nothing] at once
    contradiction
  · obtain ⟨s, run, left⟩ : ∃ s, Run step AnyOrder {} [.heartBeat 7 1, .fire 1, .pullData 7 2,
        .heartBeat 7 3, .clearUserData 1, .complete 0, .handlerReturns 1] s ∧ _ :=
      Run.of_check step (fun _ _ => true) {} _
        (fun s => decide (s.timers 1 = some { argument := ⟨7, 0⟩, status := .finished } ∧
          s.disposed.count 0 = 2)) (fun _ _ _ => trivial) (by decide)
    obtain ⟨finished, twice⟩ := of_decide_eq_true left
    refine ⟨s, run, twice, ?_⟩
    intro owned
    have once := owned.disposed 1 _ _ finished
    rw [twice] at once
    contradiction

end Service
end Tinyim.Access
