import Tinyim.Idgen.Grants

/-! The ids of one process lifetime. Whatever fails and whoever else asks, the
successful calls of a user hand out one range after the other. -/
namespace Tinyim.IdGen
open Transition

/-- The grants hand out the ids from `first` up to the one before `next`, in order and
without a gap. -/
def Tiles (first next : Int) : List Grant → Prop
  | [] => next = first
  | g :: later => g.startId = first ∧ Tiles (g.startId + g.needMsgidNum) next later

/-- The process goes on, and every call asks for at least one id. -/
def InLifetime : Event → Prop
  | .call _ _ needMsgidNum => 1 ≤ needMsgidNum
  | .restart => False

instance : DecidablePred InLifetime
  | .call _ _ needMsgidNum => inferInstanceAs (Decidable (1 ≤ needMsgidNum))
  | .restart => inferInstanceAs (Decidable False)

theorem Tiles.append (tiles : Tiles first next grants) (starts : g.startId = next) :
    Tiles first (next + g.needMsgidNum) (grants ++ [g]) := by
  induction grants generalizing first with
  | nil =>
      obtain rfl : next = first := tiles
      exact ⟨starts, by rw [← starts]; rfl⟩
  | cons head later ih =>
      obtain ⟨first, rest⟩ := tiles
      exact ⟨first, ih rest⟩

/-- The grants of every user tile the ids from its first one up to its counter. -/
structure Contiguous (first : Int → Int) (s : Session) : Prop where
  nonneg : ∀ u, 0 ≤ lastId s.idgen u
  tiles : ∀ u, Tiles (first u) (lastId s.idgen u + 1) (s.log.filter (·.userId = u))

theorem contiguous_init (nonneg : ∀ u v, db u = some v → 0 ≤ v) :
    Contiguous (fun u => (db u).getD 0 + 1) (.init db) where
  nonneg u := by
    simp only [Session.init, lastId_init]
    cases held : db u with
    | none => exact le_refl _
    | some v => exact nonneg u v held
  tiles u := by
    simp only [Session.init, lastId_init]
    rfl

theorem Contiguous.served (contiguous : Contiguous first s) (need1 : 1 ≤ need)
    (called : idGenerate n disk userId need s.idgen = some (.ok startId, idgen)) :
    Contiguous first ⟨idgen, s.log ++ [⟨userId, startId, need⟩]⟩ := by
  obtain ⟨start, counter⟩ := lastId_served (contiguous.nonneg userId) need1 called
  constructor
  · intro u
    rw [counter, Function.update_apply]
    split
    · have before := contiguous.nonneg userId
      omega
    · exact contiguous.nonneg u
  · intro u
    simp only [counter, List.filter_append]
    by_cases same : userId = u
    · subst same
      have tiles := (contiguous.tiles userId).append (g := ⟨userId, startId, need⟩) start
      simp only [Function.update_self, List.filter_cons, decide_true, if_true, List.filter_nil]
      have moved : lastId s.idgen userId + 1 + need = lastId s.idgen userId + need + 1 := by omega
      rwa [moved] at tiles
    · simp only [Function.update_of_ne (Ne.symm same), List.filter_cons, same, decide_false,
        Bool.false_eq_true, if_false, List.filter_nil, List.append_nil]
      exact contiguous.tiles u

theorem Contiguous.refused (contiguous : Contiguous first s)
    (called : idGenerate n disk userId need s.idgen = some (.error reason, idgen)) :
    Contiguous first ⟨idgen, s.log⟩ := by
  have kept := lastId_refused called
  exact ⟨fun u => kept ▸ contiguous.nonneg u, fun u => kept ▸ contiguous.tiles u⟩

theorem contiguous_step (contiguous : Contiguous first s) (lifetime : InLifetime e)
    (stepped : step n s e = some t) : Contiguous first t := by
  cases e with
  | restart => exact lifetime.elim
  | call disk userId need =>
      simp only [step, Option.map_eq_some_iff] at stepped
      obtain ⟨⟨result, idgen⟩, called, rfl⟩ := stepped
      cases result with
      | ok startId => exact contiguous.served lifetime called
      | error reason => exact contiguous.refused called

/-- Within one lifetime the ranges of a user follow one another without a gap, and the
first one follows the value that LevelDB holds. -/
theorem ranges_without_gap (nonneg : ∀ u v, db u = some v → 0 ≤ v)
    (run : Run (step n) (fun _ e => InLifetime e) (.init db) es s) (userId : Int) :
    Tiles ((db userId).getD 0 + 1) (lastId s.idgen userId + 1)
      (s.log.filter (·.userId = userId)) :=
  (run.invariant (Contiguous _) (fun contiguous lifetime stepped =>
    contiguous_step contiguous lifetime stepped) (contiguous_init nonneg)).tiles userId

/-- A failed Put, a failed Get and another user in between, over a block boundary. -/
theorem ranges_without_gap_after_failures :
    ∃ s, Run (step 1024) (fun _ e => InLifetime e)
        (.init fun u => if u = 7 then some 2048 else none)
        [.call { put := some [] } 7 5, .call {} 7 1000, .call { get := some [] } 9 1,
          .call {} 9 3, .call { put := some [] } 7 30, .call {} 7 30] s ∧
      s.log = [⟨7, 2049, 1000⟩, ⟨9, 1, 3⟩, ⟨7, 3049, 30⟩] ∧
      Tiles 2049 3079 (s.log.filter (·.userId = 7)) := by
  obtain ⟨s, run, checked⟩ := Run.of_check (step 1024) (fun _ e => decide (InLifetime e))
    (.init fun u => if u = 7 then some 2048 else none)
    [.call { put := some [] } 7 5, .call {} 7 1000, .call { get := some [] } 9 1,
      .call {} 9 3, .call { put := some [] } 7 30, .call {} 7 30]
    (fun s => decide (s.log = [⟨7, 2049, 1000⟩, ⟨9, 1, 3⟩, ⟨7, 3049, 30⟩] ∧
      lastId s.idgen 7 = 3078)) (fun _ _ => of_decide_eq_true) (by decide)
  obtain ⟨log, counter⟩ := of_decide_eq_true checked
  refine ⟨s, run, log, ?_⟩
  have tiles := ranges_without_gap (by simp) run 7
  rw [counter] at tiles
  exact tiles

end Tinyim.IdGen
