import Tinyim.Transition
import Tinyim.Idgen.LevelDb

/-! Runs of `IdGenerate` calls and process restarts. A restart reloads the
persisted block end, so the ids of a user stay ordered exactly as long as that
value covers the last id handed out. -/
namespace Tinyim.IdGen
open Transition Checked

structure Grant where
  userId : Int
  startId : Int
  needMsgidNum : Int
  deriving DecidableEq, Repr

def Grant.lastId (g : Grant) : Int := g.startId + g.needMsgidNum - 1

def Grant.Contains (g : Grant) (id : Int) : Prop := g.startId ≤ id ∧ id ≤ g.lastId

structure Session where
  idgen : LevelDbIdGen
  /-- The successful calls so far, oldest first. -/
  log : List Grant

def Session.init (db : Int → Option Int) : Session := ⟨.init db, []⟩

inductive Event where
  | call (disk : Disk) (userId : Int) (needMsgidNum : Int)
  | restart
  deriving DecidableEq, Repr

def step (eachGenIdNum : Int) (s : Session) : Event → Option Session
  | .call disk userId needMsgidNum =>
      (idGenerate eachGenIdNum disk userId needMsgidNum s.idgen).map fun
        | (.ok startId, idgen) => ⟨idgen, s.log ++ [⟨userId, startId, needMsgidNum⟩]⟩
        | (.error _, idgen) => ⟨idgen, s.log⟩
  | .restart => some ⟨restart s.idgen, s.log⟩

/-- LevelDB answers, and at least one id is asked for. -/
def Healthy : Event → Prop
  | .call disk _ needMsgidNum => disk = {} ∧ 1 ≤ needMsgidNum
  | .restart => True

/-- The call is served from the cache at a multiple of the block size: the block
test compares `0 + need` and skips the Put although a new block begins. -/
def BoundaryCall (eachGenIdNum : Int) (s : Session) : Event → Prop
  | .call _ userId needMsgidNum =>
      cached s.idgen userId ≠ 0 ∧ (cached s.idgen userId).tmod eachGenIdNum = 0 ∧
        needMsgidNum ≤ eachGenIdNum
  | .restart => False

instance : DecidablePred Healthy := fun e => by
  cases e <;> unfold Healthy <;> infer_instance

instance : Decidable (BoundaryCall n s e) := by
  cases e <;> unfold BoundaryCall <;> infer_instance

/-- Calls of one user return disjoint ranges, a later one above an earlier one. -/
def Ordered (log : List Grant) : Prop :=
  log.Pairwise fun earlier later => earlier.userId = later.userId →
    (∀ id, ¬ (earlier.Contains id ∧ later.Contains id)) ∧ earlier.lastId < later.startId

structure Covered (n : Int) (s : Session) : Prop where
  cachedNonneg : ∀ u, 0 ≤ cached s.idgen u
  storedNonneg : ∀ u, 0 ≤ stored s.idgen u
  block : ∀ u, cached s.idgen u ≠ 0 → stored s.idgen u = (cached s.idgen u + n - 1) / n * n
  bounded : ∀ g ∈ s.log, g.lastId ≤ lastId s.idgen g.userId
  ordered : Ordered s.log

theorem Covered.lastId_nonneg (covered : Covered n s) (u : Int) : 0 ≤ lastId s.idgen u := by
  unfold lastId
  split
  · exact covered.storedNonneg u
  · exact covered.cachedNonneg u

theorem Covered.lastId_le_stored (covered : Covered n s) (positive : 0 < n) (u : Int) :
    lastId s.idgen u ≤ stored s.idgen u := by
  unfold lastId
  split
  · exact le_refl _
  · rename_i loaded
    rw [covered.block u loaded]
    exact le_roundUp positive

theorem covered_init (db : Int → Option Int) (nonneg : ∀ u v, db u = some v → 0 ≤ v) :
    Covered n (.init db) where
  cachedNonneg u := by simp [Session.init]
  storedNonneg u := by
    simp only [stored, Session.init, LevelDbIdGen.init]
    cases found : db u with
    | none => simp
    | some v => simpa using nonneg u v found
  block u loaded := by simp [Session.init] at loaded
  bounded g member := by simp [Session.init] at member
  ordered := .nil

theorem Covered.ordered_append (covered : Covered n s) :
    Ordered (s.log ++ [⟨userId, lastId s.idgen userId + 1, need⟩]) := by
  refine List.pairwise_append.mpr ⟨covered.ordered, List.pairwise_singleton _ _, ?_⟩
  intro earlier member later single same
  rw [List.mem_singleton] at single
  subst later
  have same : earlier.userId = userId := same
  have bound : earlier.lastId ≤ lastId s.idgen userId := same ▸ covered.bounded earlier member
  refine ⟨fun id both => ?_, by simp only; omega⟩
  have upper := both.1.2
  have lower : lastId s.idgen userId + 1 ≤ id := both.2.1
  omega

theorem covered_restart (covered : Covered n s) (positive : 0 < n) :
    Covered n ⟨restart s.idgen, s.log⟩ where
  cachedNonneg u := by simp [restart]
  storedNonneg u := covered.storedNonneg u
  block u loaded := by simp [restart] at loaded
  bounded g member := by
    simp only [restart, lastId_init]
    exact (covered.bounded g member).trans (covered.lastId_le_stored positive g.userId)
  ordered := covered.ordered

/-- After a call LevelDB holds the end of the block of the last id, also when nothing has
been put. -/
theorem Covered.stored_served (covered : Covered n s) (positive : 0 < n) (need1 : 1 ≤ need)
    (offBoundary : ¬ BoundaryCall n s (.call disk userId need))
    (served : idGenerate n disk userId need s.idgen = some (.ok startId, idgen)) :
    stored idgen = Function.update (stored s.idgen) userId
      ((lastId s.idgen userId + need + n - 1) / n * n) := by
  have start := covered.lastId_nonneg userId
  have quotient : (lastId s.idgen userId + need + n - 1).tdiv n =
      (lastId s.idgen userId + need + n - 1) / n := Int.tdiv_eq_ediv_of_nonneg (by omega)
  obtain ⟨_, -, failed, -⟩ | ⟨-, -, persisted⟩ := idGenerate_cases served
  · cases failed
  funext v
  obtain ⟨-, put⟩ | ⟨⟨loaded, room⟩, kept⟩ := persisted
  · by_cases self : v = userId
    · subst self
      simp [stored, put, quotient]
    · simp [stored, put, self]
  · by_cases self : v = userId
    · -- Nothing was persisted, so the range stays inside the block already stored.
      subst self
      have mod : (cached s.idgen v).tmod n = cached s.idgen v % n :=
        Int.tmod_eq_emod_of_nonneg (covered.cachedNonneg v)
      have inside : cached s.idgen v % n ≠ 0 := by
        intro multiple
        refine offBoundary ⟨loaded, mod.trans multiple, ?_⟩
        rwa [mod, multiple, zero_add] at room
      rw [mod] at room
      rw [Function.update_self, lastId_of_loaded loaded, stored, kept, ← stored,
        covered.block v loaded]
      exact le_antisymm (roundUp_mono positive (by omega))
        (roundUp_le positive (add_le_roundUp positive inside room))
    · simp [stored, kept, self]

theorem covered_call (covered : Covered n s) (positive : 0 < n) (need1 : 1 ≤ need)
    (offBoundary : ¬ BoundaryCall n s (.call disk userId need))
    (called : idGenerate n disk userId need s.idgen = some (.ok startId, idgen)) :
    Covered n ⟨idgen, s.log ++ [⟨userId, startId, need⟩]⟩ := by
  have start := covered.lastId_nonneg userId
  have store := covered.stored_served positive need1 offBoundary called
  have cache := cached_served called
  obtain ⟨rfl, counter⟩ := lastId_served start need1 called
  have reached := le_roundUp (x := lastId s.idgen userId + need) positive
  refine ⟨fun v => ?_, fun v => ?_, fun v loaded => ?_, fun g member => ?_,
    covered.ordered_append⟩
  · rw [cache, Function.update_apply]
    split
    · omega
    · exact covered.cachedNonneg v
  · rw [store, Function.update_apply]
    split
    · omega
    · exact covered.storedNonneg v
  · rw [store, cache, Function.update_apply, Function.update_apply]
    by_cases self : v = userId
    · rw [if_pos self, if_pos self]
    · rw [if_neg self, if_neg self]
      rw [cache, Function.update_of_ne self] at loaded
      exact covered.block v loaded
  · rw [counter, Function.update_apply]
    obtain old | new := List.mem_append.mp member
    · have bound := covered.bounded g old
      split
      · rename_i self
        rw [self] at bound
        omega
      · exact bound
    · obtain rfl := List.mem_singleton.mp new
      rw [if_pos rfl]
      simp only [Grant.lastId]
      omega

theorem covered_step (covered : Covered n s) (positive : 0 < n) (healthy : Healthy e)
    (offBoundary : ¬ BoundaryCall n s e) (stepped : step n s e = some t) : Covered n t := by
  cases e with
  | restart =>
      cases Option.some.inj stepped
      exact covered_restart covered positive
  | call disk userId need =>
      simp only [step, Option.map_eq_some_iff] at stepped
      obtain ⟨⟨result, idgen⟩, called, rfl⟩ := stepped
      cases result with
      | ok startId => exact covered_call covered positive healthy.2 offBoundary called
      | error reason =>
          obtain ⟨rfl, -⟩ := healthy
          rcases idGenerate_cases called with ⟨_, refused, -⟩ | ⟨absurd, -⟩
          · rcases refused with refused | refused <;> cases refused
          · cases absurd

/-- Ids stay ordered over restarts in every run without a boundary call. -/
theorem grants_ordered (positive : 0 < n) (nonneg : ∀ u v, db u = some v → 0 ≤ v)
    (run : Run (step n) (fun s e => Healthy e ∧ ¬ BoundaryCall n s e) (.init db) es s) :
    Ordered s.log :=
  (run.invariant (Covered n) (fun covered admitted stepped =>
    covered_step covered positive admitted.1 admitted.2 stepped) (covered_init db nonneg)).ordered

theorem grants_ordered_across_restart :
    ∃ s, Run (step 1024) (fun s e => Healthy e ∧ ¬ BoundaryCall 1024 s e) (.init fun _ => none)
        [.call {} 7 1000, .call {} 7 30, .restart, .call {} 7 1] s ∧
      s.log.length = 3 ∧ Ordered s.log := by
  obtain ⟨s, run, three⟩ := Run.of_check (step 1024)
    (fun s e => decide (Healthy e ∧ ¬ BoundaryCall 1024 s e)) (.init fun _ => none)
    [.call {} 7 1000, .call {} 7 30, .restart, .call {} 7 1]
    (fun s => decide (s.log.length = 3)) (fun _ _ => of_decide_eq_true) (by decide)
  exact ⟨s, run, of_decide_eq_true three, grants_ordered (by decide) (by simp) run⟩

/-- A boundary call hands out ids above the persisted value, so a restart right
after it makes the next call of that user repeat them. -/
theorem boundary_call_repeats (positive : 0 < n) (covered : Covered n s)
    (boundary : BoundaryCall n s (.call disk userId need))
    (healthy : Healthy (.call disk userId need))
    (first : step n s (.call disk userId need) = some t)
    (again : step n ⟨restart t.idgen, t.log⟩ (.call {} userId more) = some u) :
    ¬ Ordered u.log := by
  obtain ⟨loaded, multiple, small⟩ := boundary
  obtain ⟨rfl, need1⟩ := healthy
  simp only [step, Option.map_eq_some_iff] at first again
  obtain ⟨⟨result, idgen⟩, called, rfl⟩ := first
  obtain ⟨⟨result', idgen'⟩, called', rfl⟩ := again
  rcases idGenerate_cases called with ⟨_, refused | refused, -⟩ | ⟨rfl, -, persisted⟩
  · cases refused
  · cases refused
  rcases idGenerate_cases called' with ⟨_, refused | refused, -⟩ | ⟨rfl, -, -⟩
  · cases refused
  · cases refused
  have counter : lastId s.idgen userId = cached s.idgen userId := by simp [lastId, loaded]
  have mod : (cached s.idgen userId).tmod n = cached s.idgen userId % n :=
    Int.tmod_eq_emod_of_nonneg (covered.cachedNonneg userId)
  have kept : stored idgen userId = cached s.idgen userId := by
    rcases persisted with ⟨loading | crosses, -⟩ | ⟨-, kept⟩
    · exact absurd loading loaded
    · omega
    · rw [stored, kept, ← stored, covered.block userId loaded,
        roundUp_self positive (mod ▸ multiple)]
  intro ordered
  have later := (List.pairwise_append.mp ordered).2.2 ⟨userId, lastId s.idgen userId + 1, need⟩
    (by simp) _ (List.mem_singleton_self _) rfl
  have reloaded : lastId (restart idgen) userId = stored idgen userId := lastId_init _ _
  have above := later.2
  simp only [Grant.lastId, reloaded, kept, counter] at above
  omega

/-- With blocks of 1024 the id 1025 is handed out on both sides of a restart. -/
theorem boundary_restart_repeats_id :
    ∃ s, Run (step 1024) (fun _ e => Healthy e) (.init fun _ => none)
        [.call {} 7 1024, .call {} 7 1, .restart, .call {} 7 1] s ∧
      s.log = [⟨7, 1, 1024⟩, ⟨7, 1025, 1⟩, ⟨7, 1025, 1⟩] ∧ ¬ Ordered s.log := by
  obtain ⟨s, run, repeated⟩ := Run.of_check (step 1024) (fun _ e => decide (Healthy e))
    (.init fun _ => none) [.call {} 7 1024, .call {} 7 1, .restart, .call {} 7 1]
    (fun s => decide (s.log = [⟨7, 1, 1024⟩, ⟨7, 1025, 1⟩, ⟨7, 1025, 1⟩]))
    (fun _ _ => of_decide_eq_true) (by decide)
  have log := of_decide_eq_true repeated
  refine ⟨s, run, log, fun ordered => ?_⟩
  rw [log] at ordered
  have clash := List.rel_of_pairwise_cons (List.pairwise_cons.mp ordered).2
    (List.mem_singleton_self _) rfl
  exact absurd clash.2 (by decide)

end Tinyim.IdGen
