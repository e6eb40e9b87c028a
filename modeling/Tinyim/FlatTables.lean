import Tinyim.Transition
import Tinyim.Access.FlatTable
import Tinyim.Idgen.FlatCache

/-! The arrays of `kBucketNum` maps of the two services against one map each. The bucket of
a user is `user_id % kBucketNum`, whose sign is that of the user id. -/
namespace Tinyim.FlatTables
open Transition Sharding
open IdGen (LevelDbIdGen FlatIdGen Disk)

structure Tables where
  access : Access.Service
  idGen : LevelDbIdGen
  /-- What the calls of IdGenerate have answered. -/
  answers : List (Except Text Int) := []

structure Flat where
  access : Access.FlatService
  idGen : FlatIdGen
  answers : List (Except Text Int)

inductive Operation where
  | access (event : Access.Event)
  | idGenerate (disk : Disk) (userId needMsgidNum : Int)

namespace Tables

def init (db : Int → Option Int) : Tables := ⟨{}, .init db, []⟩

def step (eachGenIdNum : Int) (s : Tables) : Operation → Option Tables
  | .access event => do
    let access ← s.access.step event
    return { s with access := access }
  | .idGenerate disk userId needMsgidNum => do
    let (answer, idGen) ← IdGen.idGenerate eachGenIdNum disk userId needMsgidNum s.idGen
    return { s with idGen := idGen, answers := s.answers ++ [answer] }

def flatten (s : Tables) : Flat := ⟨s.access.flatten, s.idGen.flatten, s.answers⟩

end Tables

namespace Flat

def step (eachGenIdNum : Int) (s : Flat) : Operation → Option Flat
  | .access event => do
    let access ← s.access.step event
    return { s with access := access }
  | .idGenerate disk userId needMsgidNum => do
    let (answer, idGen) ← s.idGen.idGenerate eachGenIdNum disk userId needMsgidNum
    return { s with idGen := idGen, answers := s.answers ++ [answer] }

def userOf (s : Flat) : Operation → Option Int
  | .access event => s.access.userOf event
  | .idGenerate _ userId _ => some userId

/-- The user ids for which a bucket index is computed in a run. -/
def users (eachGenIdNum : Int) (s : Flat) : List Operation → List Int
  | [] => []
  | op :: ops =>
    (s.userOf op).toList ++
      match s.step eachGenIdNum op with
      | some t => users eachGenIdNum t ops
      | none => []

end Flat

variable {n : Int} {s s' : Tables} {f t : Flat} {op : Operation} {ops : List Operation}

theorem step_flatten (s : Tables) (op : Operation)
    (addressed : ∀ u ∈ s.flatten.userOf op, (index 16 u).isSome = true) :
    (s.step n op).map Tables.flatten = s.flatten.step n op := by
  cases op with
  | access event =>
      have refined := s.access.step_flatten event addressed
      have flat : s.flatten.access = s.access.flatten := rfl
      simp only [Tables.step, Flat.step, flat, ← refined]
      cases s.access.step event with
      | none => rfl
      | some access => rfl
  | idGenerate disk userId need =>
      obtain ⟨bucket, found⟩ := Option.isSome_iff_exists.mp (addressed userId rfl)
      have refined := IdGen.idGenerate_flatten n disk need s.idGen found
      have flat : s.flatten.idGen = s.idGen.flatten := rfl
      simp only [Tables.step, Flat.step, flat, ← refined]
      cases IdGen.idGenerate n disk userId need s.idGen with
      | none => rfl
      | some called => rfl

theorem step_addressed (stepped : s.step n op = some s') :
    ∀ u ∈ s.flatten.userOf op, (index 16 u).isSome = true := by
  intro u user
  cases found : index 16 u with
  | some bucket => rfl
  | none =>
      cases op with
      | access event =>
          simp only [Tables.step, s.access.step_unaddressed user found] at stepped
          cases stepped
      | idGenerate disk userId need =>
          cases user
          simp only [Tables.step, IdGen.idGenerate_unaddressed n disk need s.idGen found] at stepped
          cases stepped

def InArrays (f : Flat) (op : Operation) : Prop :=
  ∀ u ∈ f.userOf op, (index 16 u).isSome = true

/-- Whatever the arrays do, the flat tables do too. -/
theorem run_flatten (run : Run (Tables.step n) (fun _ _ => True) s ops s') :
    Run (Flat.step n) InArrays s.flatten ops s'.flatten :=
  run.map fun stepped => ⟨step_addressed stepped, by
    rw [← step_flatten _ _ (step_addressed stepped), stepped, Option.map_some]⟩

theorem run_of_flat (run : Run (Flat.step n) InArrays s.flatten ops t) :
    ∃ s', Run (Tables.step n) (fun _ _ => True) s ops s' ∧ s'.flatten = t :=
  run.lift fun inside stepped => by
    rw [← step_flatten _ _ inside] at stepped
    exact Option.map_eq_some_iff.mp stepped

theorem users_cons (stepped : f.step n op = some t) :
    f.users n (op :: ops) = (f.userOf op).toList ++ t.users n ops := by
  simp only [Flat.users, stepped]

theorem run_guarded_iff (P : Int → Prop) :
    Run (Flat.step n) (fun f op => ∀ u ∈ f.userOf op, P u) f ops t ↔
      Run (Flat.step n) (fun _ _ => True) f ops t ∧ ∀ u ∈ f.users n ops, P u := by
  constructor
  · intro run
    refine ⟨run.mono fun _ _ _ => trivial, ?_⟩
    induction run with
    | refl => exact fun u member => absurd member List.not_mem_nil
    | next admitted stepped _ ih =>
        intro u member
        rw [users_cons stepped] at member
        obtain here | later := List.mem_append.mp member
        · exact admitted u (Option.mem_toList.mp here)
        · exact ih u later
  · rintro ⟨run, all⟩
    induction run with
    | refl => exact .refl _
    | next _ stepped _ ih =>
        rw [users_cons stepped] at all
        refine .next (fun u user => ?_) stepped (ih fun u later => ?_)
        · exact all u (List.mem_append_left _ (Option.mem_toList.mpr user))
        · exact all u (List.mem_append_right _ later)

theorem step_frame (stepped : f.step n op = some t) (other : f.userOf op ≠ some v) :
    t.access.table v = f.access.table v ∧ t.idGen.cache v = f.idGen.cache v := by
  cases op with
  | access event =>
      simp only [Flat.step, Option.bind_eq_bind, Option.bind_eq_some_iff, Option.pure_def,
        Option.some.injEq] at stepped
      obtain ⟨access, moved, rfl⟩ := stepped
      exact ⟨Access.FlatService.step_frame moved other, rfl⟩
  | idGenerate disk userId need =>
      simp only [Flat.step, Option.bind_eq_bind, Option.bind_eq_some_iff, Option.pure_def,
        Option.some.injEq] at stepped
      obtain ⟨called, moved, rfl⟩ := stepped
      have different : v ≠ userId := by
        rintro rfl
        exact other rfl
      exact ⟨rfl, FlatIdGen.idGenerate_frame moved different⟩

/-- A user that no operation of a run is about keeps its entries. -/
theorem run_frame (run : Run (Flat.step n) (fun _ _ => True) f ops t)
    (other : v ∉ f.users n ops) :
    t.access.table v = f.access.table v ∧ t.idGen.cache v = f.idGen.cache v := by
  induction run with
  | refl => exact ⟨rfl, rfl⟩
  | next _ stepped _ ih =>
      rw [users_cons stepped, List.mem_append, not_or] at other
      obtain ⟨here, later⟩ := other
      obtain ⟨table, cache⟩ := ih later
      obtain ⟨entry, slot⟩ := step_frame stepped (mt Option.mem_toList.mpr here)
      exact ⟨table.trans entry, cache.trans slot⟩

/-- A run of the flat tables, as the arrays should carry it out. -/
structure Carried (n : Int) (s : Tables) (ops : List Operation) (t : Flat) : Prop where
  inside : ∀ u ∈ s.flatten.users n ops, 0 ≤ u.tmod 16 ∧ u.tmod 16 < 16
  carried : ∃ s', Run (Tables.step n) (fun _ _ => True) s ops s' ∧ s'.flatten = t
  frame : ∀ v, v ∉ s.flatten.users n ops →
    t.access.table v = s.flatten.access.table v ∧ t.idGen.cache v = s.flatten.idGen.cache v

/-- The arrays stand for the flat tables as long as no user id has a negative remainder. -/
theorem arrays_refine_flat_iff (run : Run (Flat.step n) (fun _ _ => True) s.flatten ops t) :
    Carried n s ops t ↔ ∀ u ∈ s.flatten.users n ops, 0 ≤ u ∨ 16 ∣ u := by
  have arrays (u : Int) : (index 16 u).isSome = true ↔ 0 ≤ u ∨ 16 ∣ u :=
    index_isSome_iff_dvd (by decide)
  constructor
  · intro carried u member
    exact (arrays u).mp (index_isSome_iff.mpr (carried.inside u member))
  · intro addressed
    have inside : ∀ u ∈ s.flatten.users n ops, (index 16 u).isSome = true := fun u member =>
      (arrays u).mpr (addressed u member)
    exact {
      inside := fun u member => index_isSome_iff.mp (inside u member)
      carried := run_of_flat ((run_guarded_iff _).mpr ⟨run, inside⟩)
      frame := fun v other => run_frame run other }

/-- A long poll and a heartbeat of user 7 and ids for the users 7 and -16. -/
theorem arrays_refine_flat_iff_two_users :
    ∃ t, Carried 1024 (.init fun _ => none) [.access (.pullData 7 1), .idGenerate {} 7 3,
      .access (.heartBeat 7 2), .idGenerate {} (-16) 1, .idGenerate {} 7 2] t := by
  obtain ⟨t, run, -⟩ : ∃ t, Run (Flat.step 1024) (fun _ _ => True)
      (Tables.init fun _ => none).flatten [.access (.pullData 7 1), .idGenerate {} 7 3,
        .access (.heartBeat 7 2), .idGenerate {} (-16) 1, .idGenerate {} 7 2] t ∧ _ :=
    Run.of_check _ (fun _ _ => true) _ _ (fun _ => true) (fun _ _ _ => trivial) (by decide)
  exact ⟨t, (arrays_refine_flat_iff run).mpr (by decide)⟩

/-- The bucket of user -1 is -1. -/
theorem negative_user_outside_arrays :
    (-1 : Int).tmod 16 = -1 ∧
      ((Tables.init fun _ => none).step 1024 (.access (.heartBeat (-1) 1))).isNone = true ∧
      ∃ t, Run (Flat.step 1024) (fun _ _ => True) (Tables.init fun _ => none).flatten
          [.access (.heartBeat (-1) 1)] t ∧
        ¬ Carried 1024 (.init fun _ => none) [.access (.heartBeat (-1) 1)] t := by
  obtain ⟨t, run, -⟩ : ∃ t, Run (Flat.step 1024) (fun _ _ => True)
      (Tables.init fun _ => none).flatten [.access (.heartBeat (-1) 1)] t ∧ _ :=
    Run.of_check _ (fun _ _ => true) _ _ (fun _ => true) (fun _ _ _ => trivial) (by decide)
  refine ⟨by decide, by decide, t, run, fun carried => ?_⟩
  exact absurd (carried.inside (-1) (by decide)).1 (by decide)

end Tinyim.FlatTables
