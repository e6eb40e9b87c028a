import Mathlib.Data.Finset.Max
import Mathlib.Data.List.Nodup
import Tinyim.Access.Unrun
import Tinyim.Access.Pushes

/-! `Clear`, which the process calls when it is asked to quit, while its server still
accepts. It walks the table without the buckets' locks, so the sections of the operations
come between its accesses, and it leaves the entries as they are, so the next operation on
one of them finds a Closure that has been run. -/
namespace Tinyim.Access
open Sharding OneShotTimers Transition

/-- What `ClearClosureAndReply` does next with the entry that it has reached. -/
inductive ClearAccess where
  /-- `data.cntl->CloseConnection`. -/
  | closes
  /-- `data.done->Run()`. -/
  | runs
  /-- `bthread_timer_del`, and the `delete` after it. -/
  | stops
  /-- `++iter`. -/
  | moves
  deriving DecidableEq, Repr

structure Walk where
  /-- The users whose entries it has still to meet. -/
  ahead : List Int
  /-- Those whose entries came into a later map since it began: it may have passed that map. -/
  late : List Int := []
  place : Option (Int × ClearAccess) := none
  /-- Its iterator was invalidated. -/
  lost : Bool := false

structure Process where
  service : Service := {}
  /-- The users that have an entry. -/
  keys : List Int := []
  /-- The `Clear` under way. -/
  walk : Option Walk := none

inductive ProcessEvent where
  | operation (e : Event)
  | clearBegins
  /-- The walk comes to the entry of this user and tests `data.msgs`. -/
  | clearReaches (userId : Int)
  | clearGoesOn
  | clearReturns
  deriving DecidableEq, Repr

def ProcessEvent.ofClear : ProcessEvent → Bool
  | .operation _ => false
  | .clearBegins | .clearReaches _ | .clearGoesOn | .clearReturns => true

/-- The users that have an entry after an operation. -/
def keysAfter (s : Service) (keys : List Int) : Event → List Int
  | .pullData userId _ | .heartBeat userId _ | .sendMsg userId _ => keys.insert userId
  | .clearUserData timer =>
    match s.timers timer with
    | some task => keys.erase task.argument.userId
    | none => keys
  | .sendtoAccess _ | .complete _ | .fire _ | .handlerReturns _ => keys

def bucketOf (userId : Int) : Int := userId.tmod kBucketNum

namespace Walk

def forget (walk : Walk) (userId : Int) : Walk :=
  { walk with
    ahead := walk.ahead.filter (· ≠ userId)
    late := walk.late.filter (· ≠ userId) }

/-- A new entry invalidates the iterator of its map where the map grows, which is taken to
happen. The walk does not meet it where it is past the map. -/
def meet (walk : Walk) (userId : Int) : Walk :=
  match walk.place with
  | none => { walk with late := userId :: walk.late }
  | some (here, _) =>
    if bucketOf here = bucketOf userId then { walk with lost := true }
    else if bucketOf here < bucketOf userId then { walk with late := userId :: walk.late }
    else walk

def after (walk : Walk) (s : Service) (keys : List Int) : Event → Walk
  | .pullData userId _ | .heartBeat userId _ | .sendMsg userId _ =>
    if userId ∈ keys then walk else walk.meet userId
  | .clearUserData timer =>
    match s.timers timer with
    | some task => { walk.forget task.argument.userId with
        lost := walk.lost || walk.place.any (·.1 = task.argument.userId) }
    | none => walk
  | .sendtoAccess _ | .complete _ | .fire _ | .handlerReturns _ => walk

/-- The walk has done what it does with an entry, or has not come to one. -/
def Between (walk : Walk) : Prop :=
  walk.lost = false ∧ ∀ place ∈ walk.place, place.2 = .moves

/-- The next entry may be this one: maps are walked in the order of the buckets, and each
one in any order. -/
def MayReach (walk : Walk) (userId : Int) : Prop :=
  walk.Between ∧ userId ∈ walk.ahead ++ walk.late ∧
    (∀ place ∈ walk.place, bucketOf place.1 ≤ bucketOf userId) ∧
    ∀ other ∈ walk.ahead, bucketOf userId ≤ bucketOf other

/-- The walk has tested the entry and not yet run its Closure. -/
def Midway (walk : Walk) (userId : Int) : Prop :=
  walk.place = some (userId, .closes) ∨ walk.place = some (userId, .runs)

instance (walk : Walk) : Decidable walk.Between := by
  unfold Between; infer_instance

instance (walk : Walk) (userId : Int) : Decidable (walk.MayReach userId) := by
  unfold MayReach; infer_instance

instance (walk : Walk) (userId : Int) : Decidable (walk.Midway userId) := by
  unfold Midway; infer_instance

end Walk

def ClearAccess.next : ClearAccess → Option ClearAccess
  | .closes => some .runs
  | .runs => some .stops
  | .stops => some .moves
  | .moves => none

/-- The pointers are read from the entry as it is at the access. -/
def Service.clearAccess (data : Data) (s : Service) : ClearAccess → Option Service
  | .closes => data.cntl.map fun cntl => { s with closed := s.closed ++ [cntl] }
  | .runs => data.done.map s.runClosure
  | .stops => some (s.timerDel data).2
  | .moves => none

namespace Process

def clearBegins (p : Process) : Option Process :=
  if p.walk.isNone then some { p with walk := some { ahead := p.keys } } else none

def clearReaches (userId : Int) (p : Process) : Option Process := do
  let walk ← p.walk
  let data ← p.service.entry userId
  if walk.MayReach userId then
    let access := if data.msgs.isSome then ClearAccess.closes else .stops
    return { p with walk := some { walk.forget userId with place := some (userId, access) } }
  else none

def clearGoesOn (p : Process) : Option Process := do
  let walk ← p.walk
  let (userId, access) ← walk.place
  let data ← p.service.entry userId
  if walk.lost then none
  else
    let service ← p.service.clearAccess data access
    let next ← access.next
    return { p with service := service, walk := some { walk with place := some (userId, next) } }

def clearReturns (p : Process) : Option Process := do
  let walk ← p.walk
  if walk.Between ∧ walk.ahead = [] then return { p with walk := none } else none

end Process

def processStep (p : Process) : ProcessEvent → Option Process
  | .operation e => (p.service.step e).map fun service =>
      ⟨service, keysAfter p.service p.keys e, p.walk.map (·.after p.service p.keys e)⟩
  | .clearBegins => p.clearBegins
  | .clearReaches userId => p.clearReaches userId
  | .clearGoesOn => p.clearGoesOn
  | .clearReturns => p.clearReturns

/-- The operation does not invalidate the iterator of the walk, and does not take the pointers
of an entry between the test of its `msgs` and `data.done->Run()`. -/
def Walk.KeptBy (walk : Walk) (s : Service) (keys : List Int) : Event → Prop
  | .pullData userId _ | .heartBeat userId _ | .sendMsg userId _ =>
      userId ∈ keys ∨ ∀ place ∈ walk.place, bucketOf place.1 ≠ bucketOf userId
  | .sendtoAccess msg => ¬ walk.Midway msg.userId
  | .clearUserData timer =>
      ∀ task ∈ s.timers timer, ∀ place ∈ walk.place, place.1 ≠ task.argument.userId
  | .complete _ | .fire _ | .handlerReturns _ => True

def KeepsApart (p : Process) : ProcessEvent → Prop
  | .operation e =>
      TakesUnrun p.service e ∧ ∀ walk ∈ p.walk, walk.KeptBy p.service p.keys e
  | .clearReaches userId => p.service.Unrun userId
  | .clearBegins | .clearGoesOn | .clearReturns => True

instance decidableKeptBy (walk : Walk) (s : Service) (keys : List Int) :
    (e : Event) → Decidable (walk.KeptBy s keys e)
  | .pullData userId _ | .heartBeat userId _ | .sendMsg userId _ => inferInstanceAs (Decidable
      (userId ∈ keys ∨ ∀ place ∈ walk.place, bucketOf place.1 ≠ bucketOf userId))
  | .sendtoAccess msg => inferInstanceAs (Decidable (¬ walk.Midway msg.userId))
  | .clearUserData timer => inferInstanceAs (Decidable
      (∀ task ∈ s.timers timer, ∀ place ∈ walk.place, place.1 ≠ task.argument.userId))
  | .complete _ | .fire _ | .handlerReturns _ => inferInstanceAs (Decidable True)

instance decidableKeepsApart (p : Process) : (e : ProcessEvent) → Decidable (KeepsApart p e)
  | .operation e => inferInstanceAs (Decidable
      (TakesUnrun p.service e ∧ ∀ walk ∈ p.walk, walk.KeptBy p.service p.keys e))
  | .clearReaches userId => inferInstanceAs (Decidable (p.service.Unrun userId))
  | .clearBegins | .clearGoesOn | .clearReturns => inferInstanceAs (Decidable True)

theorem Service.clearAccess_cases {s s' : Service} {data : Data}
    (accessed : s.clearAccess data access = some s') :
    s'.entry = s.entry ∧ s'.pulls = s.pulls ∧ s'.held = s.held ∧
      (access ≠ .runs ∧ s'.ran = s.ran ∨
        ∃ done, access = .runs ∧ data.done = some done ∧ s'.ran = s.ran ++ [done]) := by
  cases access with
  | closes =>
      obtain ⟨cntl, -, rfl⟩ := Option.map_eq_some_iff.mp accessed
      exact ⟨rfl, rfl, rfl, .inl ⟨nofun, rfl⟩⟩
  | runs =>
      obtain ⟨done, present, rfl⟩ := Option.map_eq_some_iff.mp accessed
      exact ⟨rfl, rfl, rfl, .inr ⟨done, rfl, present, rfl⟩⟩
  | stops =>
      obtain rfl := Option.some.inj accessed
      have kept := timerDel_kept data s
      exact ⟨by rw [kept]; rfl, by rw [kept], by rw [kept], .inl ⟨nofun, by rw [kept]⟩⟩
  | moves => cases accessed

namespace Walk
variable {walk : Walk} {s s' : Service} {keys : List Int} {u : Int}

structure Follows (walk : Walk) (s : Service) (keys : List Int) : Prop where
  found : walk.lost = false
  present : ∀ u ∈ walk.ahead ++ walk.late, u ∈ keys
  stands : ∀ place ∈ walk.place, place.1 ∈ keys
  order : ∀ place ∈ walk.place, ∀ u ∈ walk.ahead, bucketOf place.1 ≤ bucketOf u
  tested : ∀ u, walk.Midway u → s.Tested u

/-- The walk will come to the entry, or has tested it and will run its Closure. -/
def Awaits (walk : Walk) (userId : Int) : Prop := userId ∈ walk.ahead ∨ walk.Midway userId

theorem Midway.user (midway : walk.Midway v) (place : walk.place = some (u, access)) : v = u := by
  rcases midway with here | here
  · exact (Prod.mk.inj (Option.some.inj (here.symm.trans place))).1
  · exact (Prod.mk.inj (Option.some.inj (here.symm.trans place))).1

theorem not_midway (place : walk.place = some (here, access)) (tests : access ≠ .closes)
    (runs : access ≠ .runs) : ¬ walk.Midway u := by
  rintro (there | there)
  · exact tests (Prod.mk.inj (Option.some.inj (place.symm.trans there))).2
  · exact runs (Prod.mk.inj (Option.some.inj (place.symm.trans there))).2

theorem not_midway_of_none (place : walk.place = none) : ¬ walk.Midway u := by
  rintro (there | there)
  · cases place.symm.trans there
  · cases place.symm.trans there

theorem Between.not_midway (between : walk.Between) : ¬ walk.Midway u := by
  cases place : walk.place with
  | none => exact not_midway_of_none place
  | some standing =>
      have moves := between.2 standing place
      exact Walk.not_midway place (by rw [moves]; nofun) (by rw [moves]; nofun)

theorem meet_cases (kept : u ∈ keys ∨ ∀ place ∈ walk.place, bucketOf place.1 ≠ bucketOf u) :
    (if u ∈ keys then walk else walk.meet u) = walk ∨
      (if u ∈ keys then walk else walk.meet u) = { walk with late := u :: walk.late } := by
  split
  · exact .inl rfl
  · rename_i new
    have apart := kept.resolve_left new
    simp only [meet]
    split
    · exact .inr rfl
    · rename_i here access place
      rw [if_neg (apart (here, access) place)]
      split
      · exact .inr rfl
      · exact .inl rfl

theorem after_cases (kept : walk.KeptBy s keys e) :
    (walk.after s keys e = walk ∨
        ∃ u ∈ keysAfter s keys e, walk.after s keys e = { walk with late := u :: walk.late }) ∧
      (∀ u ∈ keys, u ∈ keysAfter s keys e) ∨
    ∃ v, keysAfter s keys e = keys.erase v ∧ walk.after s keys e = walk.forget v ∧
      ∀ place ∈ walk.place, place.1 ≠ v := by
  have written : ∀ u, (u ∈ keys ∨ ∀ place ∈ walk.place, bucketOf place.1 ≠ bucketOf u) →
      ((if u ∈ keys then walk else walk.meet u) = walk ∨
        ∃ v ∈ keys.insert u,
          (if u ∈ keys then walk else walk.meet u) = { walk with late := v :: walk.late }) ∧
      ∀ v ∈ keys, v ∈ keys.insert u := by
    intro u kept
    refine ⟨(meet_cases kept).imp_right fun met => ⟨u, List.mem_insert_self, met⟩, ?_⟩
    intro v member
    exact List.mem_insert_of_mem member
  cases e with
  | pullData u _ => exact .inl (written u kept)
  | heartBeat u _ => exact .inl (written u kept)
  | sendMsg u _ => exact .inl (written u kept)
  | clearUserData t =>
      simp only [after, keysAfter]
      cases found : s.timers t with
      | none => exact .inl ⟨.inl rfl, fun _ member => member⟩
      | some task =>
          have apart := kept task found
          refine .inr ⟨task.argument.userId, rfl, ?_, apart⟩
          have elsewhere : walk.place.any (·.1 = task.argument.userId) = false := by
            cases place : walk.place with
            | none => rfl
            | some standing =>
                exact decide_eq_false (apart _ place)
          simp only [elsewhere, Bool.or_false]
          rfl
  | sendtoAccess _ | complete _ | fire _ | handlerReturns _ =>
      exact .inl ⟨.inl rfl, fun _ member => member⟩

theorem mem_forget : u ∈ (walk.forget v).ahead ↔ u ∈ walk.ahead ∧ u ≠ v := by
  simp [forget]

theorem mem_forget_all :
    u ∈ (walk.forget v).ahead ++ (walk.forget v).late ↔
      u ∈ walk.ahead ++ walk.late ∧ u ≠ v := by
  simp only [forget, List.mem_append, List.mem_filter, ne_eq, decide_eq_true_eq]
  tauto

theorem Follows.after (follows : walk.Follows s keys) (kept : walk.KeptBy s keys e)
    (tested : ∀ u, walk.Midway u → s'.Tested u) :
    (walk.after s keys e).Follows s' (keysAfter s keys e) := by
  rcases after_cases kept with ⟨same | ⟨u, new, same⟩, grown⟩ | ⟨v, erased, same, apart⟩
  · rw [same]
    exact ⟨follows.found, fun u member => grown u (follows.present u member),
      fun place here => grown _ (follows.stands place here), follows.order, tested⟩
  · rw [same]
    refine ⟨follows.found, ?_, fun place here => grown _ (follows.stands place here),
      follows.order, tested⟩
    intro v member
    rcases List.mem_append.mp member with old | late
    · exact grown v (follows.present v (List.mem_append_left _ old))
    · rcases List.mem_cons.mp late with rfl | old
      · exact new
      · exact grown v (follows.present v (List.mem_append_right _ old))
  · rw [same, erased]
    refine ⟨follows.found, ?_, ?_, ?_, tested⟩
    · intro u member
      obtain ⟨member, other⟩ := mem_forget_all.mp member
      exact (List.mem_erase_of_ne other).mpr (follows.present u member)
    · intro place here
      exact (List.mem_erase_of_ne (apart place here)).mpr (follows.stands place here)
    · intro place here u member
      exact follows.order place here u (mem_forget.mp member).1

end Walk

namespace Process
variable {p q : Process}

theorem clearBegins_cases (began : p.clearBegins = some q) :
    p.walk = none ∧ q = { p with walk := some { ahead := p.keys } } := by
  simp only [clearBegins] at began
  split at began
  · rename_i idle
    exact ⟨Option.isNone_iff_eq_none.mp idle, (Option.some.inj began).symm⟩
  · cases began

theorem clearReaches_cases (reached : p.clearReaches u = some q) :
    ∃ walk data, p.walk = some walk ∧ p.service.entry u = some data ∧ walk.MayReach u ∧
      q = { p with walk := some { walk.forget u with
        place := some (u, if data.msgs.isSome then .closes else .stops) } } := by
  obtain ⟨walk, under, reached⟩ := Option.bind_eq_some_iff.mp reached
  obtain ⟨data, found, reached⟩ := Option.bind_eq_some_iff.mp reached
  split at reached
  · rename_i may
    exact ⟨walk, data, under, found, may, (Option.some.inj reached).symm⟩
  · cases reached

theorem clearGoesOn_cases (went : p.clearGoesOn = some q) :
    ∃ walk u access data service next, p.walk = some walk ∧ walk.place = some (u, access) ∧
      p.service.entry u = some data ∧ p.service.clearAccess data access = some service ∧
      access.next = some next ∧
      q = { p with service := service, walk := some { walk with place := some (u, next) } } := by
  obtain ⟨walk, under, went⟩ := Option.bind_eq_some_iff.mp went
  obtain ⟨⟨u, access⟩, here, went⟩ := Option.bind_eq_some_iff.mp went
  obtain ⟨data, found, went⟩ := Option.bind_eq_some_iff.mp went
  split at went
  · cases went
  · obtain ⟨service, accessed, went⟩ := Option.bind_eq_some_iff.mp went
    obtain ⟨next, following, went⟩ := Option.bind_eq_some_iff.mp went
    exact ⟨walk, u, access, data, service, next, under, here, found, accessed, following,
      (Option.some.inj went).symm⟩

theorem clearReturns_cases (returned : p.clearReturns = some q) :
    ∃ walk, p.walk = some walk ∧ walk.Between ∧ walk.ahead = [] ∧
      q = { p with walk := none } := by
  obtain ⟨walk, under, returned⟩ := Option.bind_eq_some_iff.mp returned
  split at returned
  · rename_i ended
    exact ⟨walk, under, ended.1, ended.2, (Option.some.inj returned).symm⟩
  · cases returned

end Process

structure Serving (p : Process) : Prop where
  custody : p.service.unrun.Custody
  nodup : p.keys.Nodup
  present : ∀ u, u ∈ p.keys ↔ (p.service.entry u).isSome
  walks : ∀ walk ∈ p.walk, walk.Follows p.service p.keys

variable {p q r : Process}

theorem serving_initial : Serving {} where
  custody := by
    refine Service.initial_custody.congr ?_ rfl rfl rfl
    funext u
    rw [Service.unrun_entry, Service.entry_initial]
    rfl
  nodup := List.nodup_nil
  present u := by simp [Service.entry_initial]
  walks := nofun

theorem keysAfter_spec {s s' : Service} (nodup : keys.Nodup)
    (present : ∀ u, u ∈ keys ↔ (s.entry u).isSome) (stepped : s.step e = some s') :
    (keysAfter s keys e).Nodup ∧ ∀ u, u ∈ keysAfter s keys e ↔ (s'.entry u).isSome := by
  have kept : s'.entry = s.entry → keysAfter s keys e = keys →
      (keysAfter s keys e).Nodup ∧ ∀ u, u ∈ keysAfter s keys e ↔ (s'.entry u).isSome := by
    intro entry same
    rw [same, entry]
    exact ⟨nodup, present⟩
  have written : ∀ v data, s'.entry = Function.update s.entry v (some data) →
      (keys.insert v).Nodup ∧ ∀ u, u ∈ keys.insert v ↔ (s'.entry u).isSome := by
    intro v data entry
    refine ⟨nodup.insert, fun u => ?_⟩
    rw [List.mem_insert_iff, entry, Function.update_apply]
    split
    · rename_i same
      simp [same]
    · rename_i other
      simp [other, present u]
  cases Service.moves_of_step stepped with
  | pulled arms ofCall hbarg held pulls replies closed ran => exact written _ _ arms.entry
  | refreshed signal arms hbarg old polls =>
      rcases signal with rfl | rfl <;> exact written _ _ arms.entry
  | popped found entry held pulls replies closed ran timers =>
      rename_i data msg
      refine ⟨nodup, fun u => ?_⟩
      change u ∈ keys ↔ _
      rw [present u, entry, Function.update_apply]
      split
      · rename_i same
        rw [same, found]
        rfl
      · rfl
  | unserved absent same => exact kept (by rw [same]) rfl
  | completed found done => exact kept (Service.complete_same done).1 rfl
  | cleared found there entry timers held pulls replies closed ran =>
      rename_i t arg data
      simp only [keysAfter, found]
      refine ⟨nodup.erase _, fun u => ?_⟩
      rw [nodup.mem_erase_iff, present u, entry, Function.update_apply]
      split
      · rename_i same
        simp [same]
      · rename_i other
        simp [other]
  | vacant found absent moved =>
      rename_i t arg
      have outside : arg.userId ∉ keys := by
        rw [present, absent]
        exact Bool.false_ne_true
      refine kept (Service.quiet_of_mark moved).1 ?_
      simp only [keysAfter, found]
      exact List.erase_of_not_mem outside
  | fired found moved => exact kept (Service.quiet_of_mark moved).1 rfl
  | returned found finished moved => exact kept (Service.quiet_of_mark moved).1 rfl

theorem serving_operation (serving : Serving p) (apart : KeepsApart p (.operation e))
    (stepped : processStep p (.operation e) = some q) : Serving q := by
  obtain ⟨service, moved, rfl⟩ := Option.map_eq_some_iff.mp stepped
  obtain ⟨fresh, keeps⟩ := apart
  obtain ⟨nodup, present⟩ := keysAfter_spec serving.nodup serving.present moved
  refine ⟨Service.unrun_step serving.custody moved fresh, nodup, present, ?_⟩
  intro walk under
  obtain ⟨old, before, rfl⟩ := Option.map_eq_some_iff.mp under
  have follows := serving.walks old before
  have kept := keeps old before
  refine follows.after kept fun u midway => ?_
  refine (follows.tested u midway).step serving.custody moved ?_ ?_
  · rintro msg rfl rfl
    exact kept midway
  · rintro t task rfl found rfl
    rcases midway with here | here
    · exact kept task found _ here rfl
    · exact kept task found _ here rfl

theorem serving_reaches (serving : Serving p) (fresh : p.service.Unrun u)
    (reached : p.clearReaches u = some q) : Serving q := by
  obtain ⟨walk, data, under, found, ⟨between, -, -, order⟩, rfl⟩ :=
    Process.clearReaches_cases reached
  have follows := serving.walks walk under
  refine ⟨serving.custody, serving.nodup, serving.present, ?_⟩
  rintro _ ⟨⟩
  refine ⟨follows.found, ?_, ?_, ?_, ?_⟩
  · intro v member
    exact follows.present v (Walk.mem_forget_all.mp member).1
  · rintro _ ⟨⟩
    exact (serving.present u).mpr (by rw [found]; rfl)
  · rintro _ ⟨⟩ v member
    exact order v (Walk.mem_forget.mp member).1
  · intro v midway
    cases waiting : data.msgs with
    | none =>
        have stops : (if data.msgs.isSome then ClearAccess.closes else .stops) = .stops := by
          rw [waiting]
          rfl
        exact absurd midway (Walk.not_midway rfl (by rw [stops]; nofun) (by rw [stops]; nofun))
    | some msgs =>
        obtain rfl : v = u := midway.user rfl
        exact ⟨fresh, by rw [found, Option.bind_some, waiting]; rfl⟩

theorem serving_goesOn (serving : Serving p) (went : p.clearGoesOn = some q) : Serving q := by
  obtain ⟨walk, u, access, data, service, next, under, here, found, accessed, following, rfl⟩ :=
    Process.clearGoesOn_cases went
  have follows := serving.walks walk under
  obtain ⟨entry, pulls, held, ran⟩ := Service.clearAccess_cases accessed
  refine ⟨?_, serving.nodup, ?_, ?_⟩
  · rcases ran with ⟨-, ran⟩ | ⟨done, rfl, present, ran⟩
    · refine serving.custody.congr ?_ pulls held ran
      funext v
      rw [Service.unrun_entry, Service.unrun_entry, entry, ran]
    · have tested := follows.tested u (.inr here)
      obtain ⟨same, call, here, owner, ofCall⟩ := tested.fields serving.custody
      obtain rfl : data = same := Option.some.inj (found.symm.trans here)
      obtain rfl : call = done := Option.some.inj (ofCall.1.symm.trans present)
      exact Service.unrun_cleared serving.custody found owner ofCall tested.1 entry pulls held ran
  · intro v
    rw [serving.present v, entry]
  · rintro _ ⟨⟩
    refine ⟨follows.found, follows.present, ?_, ?_, ?_⟩
    · rintro _ ⟨⟩
      exact follows.stands (u, access) here
    · rintro _ ⟨⟩
      exact follows.order (u, access) here
    · intro v midway
      cases access with
      | closes =>
          cases following
          rcases ran with ⟨-, same⟩ | ⟨done, absurd, -⟩
          · have stands : v = u := by
              rcases midway with here | here
              · exact (Prod.mk.inj (Option.some.inj here)).1.symm
              · exact (Prod.mk.inj (Option.some.inj here)).1.symm
            rw [stands]
            exact (follows.tested u (.inl here)).congr (congrFun entry u) same
          · cases absurd
      | runs =>
          cases following
          exact absurd midway (Walk.not_midway rfl nofun nofun)
      | stops =>
          cases following
          exact absurd midway (Walk.not_midway rfl nofun nofun)
      | moves => cases following

theorem serving_step (serving : Serving p) (apart : KeepsApart p e)
    (stepped : processStep p e = some q) : Serving q := by
  cases e with
  | operation e => exact serving_operation serving apart stepped
  | clearBegins =>
      obtain ⟨-, rfl⟩ := Process.clearBegins_cases stepped
      refine ⟨serving.custody, serving.nodup, serving.present, ?_⟩
      rintro _ ⟨⟩
      refine ⟨rfl, ?_, nofun, nofun, ?_⟩
      · intro u member
        rwa [List.append_nil] at member
      · intro u midway
        exact absurd midway (Walk.not_midway_of_none rfl)
  | clearReaches u => exact serving_reaches serving apart stepped
  | clearGoesOn => exact serving_goesOn serving stepped
  | clearReturns =>
      obtain ⟨walk, -, -, -, rfl⟩ := Process.clearReturns_cases stepped
      exact ⟨serving.custody, serving.nodup, serving.present, nofun⟩

theorem Serving.earlier (serving : Serving p) (stepped : processStep p e = some q)
    (owner : p.service.pulls[call]? = some u) :
    q.service.pulls[call]? = some u ∧ (q.service.Pending u call → p.service.Pending u call) := by
  cases e with
  | operation e =>
      obtain ⟨service, moved, rfl⟩ := Option.map_eq_some_iff.mp stepped
      exact ⟨Service.pulls_kept moved owner,
        Service.pending_before serving.custody moved owner⟩
  | clearBegins =>
      obtain ⟨-, rfl⟩ := Process.clearBegins_cases stepped
      exact ⟨owner, id⟩
  | clearReaches v =>
      obtain ⟨walk, data, -, -, -, rfl⟩ := Process.clearReaches_cases stepped
      exact ⟨owner, id⟩
  | clearGoesOn =>
      obtain ⟨walk, v, access, data, service, next, -, -, -, accessed, -, rfl⟩ :=
        Process.clearGoesOn_cases stepped
      obtain ⟨entry, pulls, -, ran⟩ := Service.clearAccess_cases accessed
      refine ⟨by rw [pulls]; exact owner, ?_⟩
      rintro ⟨waiting, fresh⟩
      rw [entry] at waiting
      refine ⟨waiting, fun done => fresh ?_⟩
      rcases ran with ⟨-, same⟩ | ⟨other, -, -, more⟩
      · rwa [same]
      · rw [more]
        exact List.mem_append_left _ done
  | clearReturns =>
      obtain ⟨walk, -, -, -, rfl⟩ := Process.clearReturns_cases stepped
      exact ⟨owner, id⟩

/-- Until `Clear` returns, the Closure waits only where the walk still comes. -/
structure Accounted (u : Int) (call : Nat) (es : List ProcessEvent) (p : Process) : Prop where
  serving : Serving p
  owner : p.service.pulls[call]? = some u
  awaited : p.service.Pending u call → .clearReturns ∉ es ∧ ∃ walk ∈ p.walk, walk.Awaits u

theorem awaits_after {walk : Walk} (awaits : walk.Awaits u)
    (kept : walk.KeptBy s keys e) (nodup : keys.Nodup) (still : u ∈ keysAfter s keys e) :
    (walk.after s keys e).Awaits u := by
  rcases Walk.after_cases kept with ⟨same | ⟨v, -, same⟩, -⟩ | ⟨v, erased, same, -⟩
  · rw [same]
    exact awaits
  · rw [same]
    exact awaits
  · rw [same]
    refine awaits.imp (fun ahead => Walk.mem_forget.mpr ⟨ahead, ?_⟩) id
    rw [erased, nodup.mem_erase_iff] at still
    exact still.1

theorem Accounted.step (accounted : Accounted u call es p) (apart : KeepsApart p e)
    (stepped : processStep p e = some q) : Accounted u call (es ++ [e]) q := by
  have serving := accounted.serving
  have after := serving_step serving apart stepped
  obtain ⟨owner, earlier⟩ := serving.earlier stepped accounted.owner
  refine ⟨after, owner, fun pending => ?_⟩
  obtain ⟨under, walk, found, awaits⟩ := accounted.awaited (earlier pending)
  have goes : e ≠ .clearReturns → (∃ walk ∈ q.walk, walk.Awaits u) →
      .clearReturns ∉ es ++ [e] ∧ ∃ walk ∈ q.walk, walk.Awaits u := by
    intro other awaited
    refine ⟨fun returned => ?_, awaited⟩
    rcases List.mem_append.mp returned with old | new
    · exact under old
    · exact other (List.mem_singleton.mp new).symm
  cases e with
  | operation e =>
      obtain ⟨service, moved, rfl⟩ := Option.map_eq_some_iff.mp stepped
      refine goes nofun ⟨_, Option.map_eq_some_iff.mpr ⟨walk, found, rfl⟩, ?_⟩
      refine awaits_after awaits (apart.2 walk found) serving.nodup ?_
      refine (after.present u).mpr ?_
      obtain ⟨data, here, -⟩ := Option.bind_eq_some_iff.mp pending.1
      rw [here]
      rfl
  | clearBegins =>
      obtain ⟨idle, -⟩ := Process.clearBegins_cases stepped
      rw [idle] at found
      cases found
  | clearReaches v =>
      obtain ⟨same, data, here, entry, ⟨between, -⟩, rfl⟩ := Process.clearReaches_cases stepped
      obtain rfl : walk = same := Option.some.inj (found.symm.trans here)
      refine goes nofun ⟨_, rfl, ?_⟩
      have ahead := awaits.resolve_right between.not_midway
      by_cases reached : u = v
      · subst reached
        obtain ⟨-, waits⟩ := (earlier pending).tested serving.custody
        rw [entry, Option.bind_some] at waits
        exact .inr (.inl (by rw [waits]; rfl))
      · exact .inl (Walk.mem_forget.mpr ⟨ahead, reached⟩)
  | clearGoesOn =>
      obtain ⟨same, v, access, data, service, next, here, place, entry, accessed, following,
        rfl⟩ := Process.clearGoesOn_cases stepped
      obtain rfl : walk = same := Option.some.inj (found.symm.trans here)
      refine goes nofun ⟨_, rfl, ?_⟩
      rcases awaits with ahead | tests | runs
      · exact .inl ahead
      · obtain ⟨rfl, rfl⟩ := Prod.mk.inj (Option.some.inj (tests.symm.trans place))
        cases following
        exact .inr (.inr rfl)
      · -- The access runs the Closure, which waits no longer.
        obtain ⟨rfl, rfl⟩ := Prod.mk.inj (Option.some.inj (runs.symm.trans place))
        obtain ⟨-, -, -, ⟨other, -⟩ | ⟨done, -, present, ran⟩⟩ :=
          Service.clearAccess_cases accessed
        · exact absurd rfl other
        · have waiting := (earlier pending).1
          rw [entry, Option.bind_some, present] at waiting
          refine absurd ?_ pending.2
          rw [ran, ← Option.some.inj waiting]
          exact List.mem_append_right _ (List.mem_singleton_self _)
  | clearReturns =>
      obtain ⟨same, here, between, ended, -⟩ := Process.clearReturns_cases stepped
      obtain rfl : walk = same := Option.some.inj (found.symm.trans here)
      have ahead := awaits.resolve_right between.not_midway
      rw [ended] at ahead
      cases ahead

/-! No pointer that the walk follows is null, so it always has a next access. -/

theorem clearGoesOn_defined {walk : Walk} (under : p.walk = some walk)
    (found : walk.lost = false) (place : walk.place = some (u, access))
    (entry : p.service.entry u = some data)
    (accessed : p.service.clearAccess data access = some service)
    (following : access.next = some next) : ∃ q, p.clearGoesOn = some q := by
  simp only [Process.clearGoesOn, under, place, entry, found, accessed, following,
    Option.bind_eq_bind, Option.bind_some, Bool.false_eq_true, if_false]
  exact ⟨_, rfl⟩

theorem exists_first (ahead : List Int) (some : ahead ≠ []) :
    ∃ u ∈ ahead, ∀ v ∈ ahead, bucketOf u ≤ bucketOf v := by
  obtain ⟨u, member, least⟩ := Finset.exists_min_image ahead.toFinset bucketOf
    (List.toFinset_nonempty_iff ahead |>.mpr some)
  exact ⟨u, List.mem_toFinset.mp member, fun v there => least v (List.mem_toFinset.mpr there)⟩

theorem Serving.next {walk : Walk} (serving : Serving p) (under : p.walk = some walk)
    (between : walk.Between) : ∃ e q, e.ofClear = true ∧ processStep p e = some q := by
  have follows := serving.walks walk under
  by_cases ended : walk.ahead = []
  · refine ⟨.clearReturns, { p with walk := none }, rfl, ?_⟩
    simp only [processStep, Process.clearReturns, under, Option.bind_eq_bind, Option.bind_some]
    exact if_pos ⟨between, ended⟩
  · obtain ⟨u, member, least⟩ := exists_first walk.ahead ended
    have ahead : u ∈ walk.ahead ++ walk.late := List.mem_append_left _ member
    obtain ⟨data, found⟩ := Option.isSome_iff_exists.mp
      ((serving.present u).mp (follows.present u ahead))
    have may : walk.MayReach u :=
      ⟨between, ahead, fun place here => follows.order place here u member, least⟩
    have reached : p.clearReaches u = some { p with walk := some { walk.forget u with
        place := some (u, if data.msgs.isSome then .closes else .stops) } } := by
      simp only [Process.clearReaches, under, found, Option.bind_eq_bind, Option.bind_some,
        if_pos may]
      rfl
    exact ⟨.clearReaches u, _, rfl, reached⟩

theorem Serving.goes_on {walk : Walk} (serving : Serving p) (under : p.walk = some walk) :
    ∃ e q, e.ofClear = true ∧ processStep p e = some q := by
  have follows := serving.walks walk under
  cases place : walk.place with
  | none =>
      refine serving.next under ⟨follows.found, ?_⟩
      rw [place]
      nofun
  | some standing =>
      obtain ⟨u, access⟩ := standing
      have tested : walk.Midway u →
          ∃ data call, p.service.entry u = some data ∧ data.OfCall call := by
        intro midway
        obtain ⟨data, call, found, -, ofCall⟩ :=
          (follows.tested u midway).fields serving.custody
        exact ⟨data, call, found, ofCall⟩
      have goes : (∃ q, p.clearGoesOn = some q) →
          ∃ e q, e.ofClear = true ∧ processStep p e = some q :=
        fun ⟨q, went⟩ => ⟨.clearGoesOn, q, rfl, went⟩
      cases access with
      | closes =>
          obtain ⟨data, call, found, -, -, cntl⟩ := tested (.inl place)
          exact goes (clearGoesOn_defined under follows.found place found
            (by rw [Service.clearAccess, cntl]; rfl) rfl)
      | runs =>
          obtain ⟨data, call, found, done, -⟩ := tested (.inr place)
          exact goes (clearGoesOn_defined under follows.found place found
            (by rw [Service.clearAccess, done]; rfl) rfl)
      | stops =>
          obtain ⟨data, found⟩ := Option.isSome_iff_exists.mp
            ((serving.present u).mp (follows.stands _ place))
          exact goes (clearGoesOn_defined under follows.found place found rfl rfl)
      | moves =>
          refine serving.next under ⟨follows.found, ?_⟩
          rw [place]
          rintro _ ⟨⟩
          rfl

/-- Two polls wait in one map when the process quits. The client of one polls again between
the test of its entry and the first access, and goes on with heartbeats. -/
def quitting : List ProcessEvent :=
  [.clearReaches 23, .operation (.pullData 23 4), .clearGoesOn, .clearGoesOn,
    .operation (.complete 0), .clearGoesOn, .clearReaches 7, .clearGoesOn, .clearGoesOn,
    .clearGoesOn, .clearReturns, .operation (.heartBeat 7 5)]

/-- A poll or a push that meets an entry left over by `Clear` takes its Closure once more. -/
theorem leftover_taken {s s' : Service} (left : (s.entry u).bind Data.done = some call)
    (taken : (∃ t, e = .pullData u t) ∨ ∃ msg : Msg, msg.userId = u ∧ e = .sendtoAccess msg)
    (stepped : s.step e = some s') : ∃ completion ∈ s'.held, completion.Uses call := by
  rcases taken with ⟨t, rfl⟩ | ⟨msg, rfl, rfl⟩
  · cases Service.moves_of_step stepped with
    | refreshed signal => obtain absurd | absurd := signal <;> cases absurd
    | pulled arms ofCall hbarg held =>
        rw [left] at held
        exact ⟨.lazyRun call, by rw [held]; simp, rfl⟩
  · cases Service.moves_of_step stepped with
    | refreshed signal => obtain absurd | absurd := signal <;> cases absurd
    | unserved absent =>
        rw [absent] at left
        cases left
    | popped found entry held pulls replies closed ran timers =>
        rename_i data
        rw [found, Option.bind_some] at left
        rw [left] at held
        exact ⟨.sendtoAccess call data.msgs msg, by rw [held]; simp, .inl rfl⟩

/-- Where a push takes the pointers of an entry that `Clear` has tested, `Clear` goes on with
a null one. -/
theorem pushed_under_walk {walk : Walk} (under : p.walk = some walk)
    (midway : walk.Midway msg.userId)
    (stepped : processStep p (.operation (.sendtoAccess msg)) = some q) :
    q.clearGoesOn = none := by
  obtain ⟨service, moved, rfl⟩ := Option.map_eq_some_iff.mp stepped
  have after : service.entry msg.userId = none ∨
      ∃ data, service.entry msg.userId = some data ∧ data.NoCall := by
    cases Service.moves_of_step moved with
    | refreshed signal => obtain absurd | absurd := signal <;> cases absurd
    | unserved absent same =>
        rw [same]
        exact .inl absent
    | popped found entry =>
        rw [entry, Function.update_self]
        exact .inr ⟨_, rfl, rfl, rfl, rfl⟩
  rw [Option.eq_none_iff_forall_ne_some]
  intro r went
  obtain ⟨same, u, access, data, next, _, here, place, found, accessed, -, -⟩ :=
    Process.clearGoesOn_cases went
  change p.walk.map _ = _ at here
  rw [under] at here
  obtain rfl := Option.some.inj here
  change walk.place = _ at place
  obtain rfl : msg.userId = u := midway.user place
  rcases after with absent | ⟨emptied, there, done, -, cntl⟩
  · cases absent.symm.trans found
  · obtain rfl : emptied = data := Option.some.inj (there.symm.trans found)
    rcases midway with tests | runs
    · obtain ⟨-, rfl⟩ := Prod.mk.inj (Option.some.inj (tests.symm.trans place))
      rw [Service.clearAccess, cntl] at accessed
      cases accessed
    · obtain ⟨-, rfl⟩ := Prod.mk.inj (Option.some.inj (runs.symm.trans place))
      rw [Service.clearAccess, done] at accessed
      cases accessed

/-- Where a handler erases the entry that `Clear` stands on, the iterator is invalid. -/
theorem evicted_under_walk {walk : Walk} (under : p.walk = some walk)
    (stands : walk.place = some (task.argument.userId, access))
    (timer : p.service.timers t = some task)
    (stepped : processStep p (.operation (.clearUserData t)) = some q) :
    q.clearGoesOn = none ∧ q.clearReturns = none ∧ ∀ u, q.clearReaches u = none := by
  obtain ⟨service, moved, rfl⟩ := Option.map_eq_some_iff.mp stepped
  obtain ⟨last, after, lost⟩ : ∃ last, p.walk.map (·.after p.service p.keys (.clearUserData t)) =
      some last ∧ last.lost = true := by
    refine ⟨_, Option.map_eq_some_iff.mpr ⟨walk, under, rfl⟩, ?_⟩
    simp only [Walk.after, timer, stands, Option.any_some, decide_true, Bool.or_true]
  have stuck : ¬ last.Between := fun between => absurd (lost.symm.trans between.1) nofun
  simp only [Process.clearGoesOn, Process.clearReturns, Process.clearReaches, after, lost,
    Option.bind_eq_bind, Option.bind_some, if_true, Option.bind_fun_none, true_and]
  refine ⟨if_neg fun ended => stuck ended.1, fun u => ?_⟩
  cases service.entry u with
  | none => rfl
  | some data => exact if_neg fun may => stuck may.1

end Tinyim.Access
