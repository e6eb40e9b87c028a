import Mathlib.Data.List.Infix

/-! Guarded runs of a partial step function. A guard restricts the events of a
run in the state each one leaves, so that one machine carries several
environments: fault-free, contract-abiding or unrestricted. -/
namespace Transition
variable {S E : Type}

inductive Run (step : S → E → Option S) (allowed : S → E → Prop) : S → List E → S → Prop where
  | refl (s) : Run step allowed s [] s
  | next : allowed s e → step s e = some t → Run step allowed t es u →
      Run step allowed s (e :: es) u

namespace Run
variable {step : S → E → Option S} {allowed weaker : S → E → Prop}

theorem trans (first : Run step allowed s es t) (second : Run step allowed t fs u) :
    Run step allowed s (es ++ fs) u := by
  induction first with
  | refl => exact second
  | next admitted stepped _ ih => exact .next admitted stepped (ih second)

theorem split (run : Run step allowed s (es ++ fs) u) :
    ∃ t, Run step allowed s es t ∧ Run step allowed t fs u := by
  induction es generalizing s with
  | nil => exact ⟨s, .refl s, run⟩
  | cons e es ih =>
      cases run with
      | next admitted stepped rest =>
          obtain ⟨t, first, second⟩ := ih rest
          exact ⟨t, .next admitted stepped first, second⟩

theorem mono (weaken : ∀ s e, allowed s e → weaker s e) (run : Run step allowed s es t) :
    Run step weaker s es t := by
  induction run with
  | refl => exact .refl _
  | next admitted stepped _ ih => exact .next (weaken _ _ admitted) stepped ih

theorem listed (run : Run step allowed s es t) :
    Run step (fun s e => allowed s e ∧ e ∈ es) s es t := by
  induction run with
  | refl => exact .refl _
  | next admitted stepped _ ih =>
      refine .next ⟨admitted, List.mem_cons_self⟩ stepped (ih.mono ?_)
      rintro s e ⟨later, member⟩
      exact ⟨later, List.mem_cons_of_mem _ member⟩

/-- An invariant is established once per step and then holds of every run. -/
theorem invariant (P : S → Prop)
    (preserves : ∀ {s e t}, P s → allowed s e → step s e = some t → P t)
    (run : Run step allowed s es t) (initial : P s) : P t := by
  induction run with
  | refl => exact initial
  | next admitted stepped _ ih => exact ih (preserves initial admitted stepped)

/-- The same for an invariant that speaks of the events so far. -/
theorem history (P : List E → S → Prop)
    (preserves : ∀ {es s e t}, P es s → allowed s e → step s e = some t → P (es ++ [e]) t)
    (run : Run step allowed s es t) (initial : P [] s) : P es t := by
  have after : ∀ before, P before s → P (before ++ es) t := by
    clear initial
    induction run with
    | refl =>
        intro before holds
        rwa [List.append_nil]
    | next admitted stepped _ ih =>
        intro before holds
        have rest := ih _ (preserves holds admitted stepped)
        rwa [List.append_assoc] at rest
  exact after [] initial

/-! A view of the states that turns the steps of one machine into those of another. -/
section View
variable {T : Type} {abstract : T → E → Option T} {guard : T → E → Prop} {view : S → T}

theorem map (carries : ∀ {s e s'}, step s e = some s' →
      guard (view s) e ∧ abstract (view s) e = some (view s'))
    (run : Run step allowed s es s') : Run abstract guard (view s) es (view s') := by
  induction run with
  | refl => exact .refl _
  | next _ stepped _ ih =>
      obtain ⟨admitted, carried⟩ := carries stepped
      exact .next admitted carried ih

theorem lift (lifts : ∀ {s e t}, guard (view s) e → abstract (view s) e = some t →
      ∃ s', step s e = some s' ∧ view s' = t)
    (run : Run abstract guard (view s) es t) :
    ∃ s', Run step (fun _ _ => True) s es s' ∧ view s' = t := by
  induction es generalizing s with
  | nil =>
      cases run
      exact ⟨s, .refl s, rfl⟩
  | cons e es ih =>
      cases run with
      | next admitted stepped rest =>
          obtain ⟨middle, first, rfl⟩ := lifts admitted stepped
          obtain ⟨s', later, same⟩ := ih rest
          exact ⟨s', .next trivial first later, same⟩

/-- Where the view of a step is a step of the view, on the states that an invariant holds of,
the two machines have the same runs. -/
theorem view_iff {I : S → Prop} (keeps : ∀ {s e s'}, I s → step s e = some s' → I s')
    (commutes : ∀ {s} e, I s → (step s e).map view = abstract (view s) e) (initial : I s) :
    (∃ s', Run step (fun s e => guard (view s) e) s es s' ∧ view s' = t) ↔
      Run abstract guard (view s) es t := by
  induction es generalizing s with
  | nil =>
      constructor
      · rintro ⟨s', run, rfl⟩
        cases run
        exact .refl _
      · intro run
        cases run
        exact ⟨s, .refl s, rfl⟩
  | cons e es ih =>
      constructor
      · rintro ⟨s', run, same⟩
        cases run with
        | next admitted stepped rest =>
            have moved := commutes e initial
            rw [stepped] at moved
            exact .next admitted moved.symm ((ih (keeps initial stepped)).mp ⟨s', rest, same⟩)
      · intro run
        cases run with
        | next admitted moved rest =>
            rw [← commutes e initial] at moved
            obtain ⟨middle, stepped, rfl⟩ := Option.map_eq_some_iff.mp moved
            obtain ⟨s', later, same⟩ := (ih (keeps initial stepped)).mpr rest
            exact ⟨s', .next admitted stepped later, same⟩

end View
end Run

/-- Executes the events one by one, checking a decidable guard before each. -/
def exec (step : S → E → Option S) (guard : S → E → Bool) (s : S) : List E → Option S
  | [] => some s
  | e :: es => if guard s e then (step s e).bind (exec step guard · es) else none

theorem Run.of_exec {step : S → E → Option S} {guard : S → E → Bool} {allowed : S → E → Prop}
    (admits : ∀ s e, guard s e = true → allowed s e) (executed : exec step guard s es = some t) :
    Run step allowed s es t := by
  induction es generalizing s with
  | nil => cases executed; exact .refl _
  | cons e es ih =>
      simp only [exec] at executed
      split at executed
      · rename_i admitted
        obtain ⟨next, stepped, rest⟩ := Option.bind_eq_some_iff.mp executed
        exact .next (admits _ _ admitted) stepped (ih rest)
      · contradiction

/-- A check of the final state of an execution yields a run that ends in such a state. -/
theorem Run.of_check (step : S → E → Option S) (guard : S → E → Bool) (s : S) (es : List E)
    (P : S → Bool) {allowed : S → E → Prop} (admits : ∀ s e, guard s e = true → allowed s e)
    (checked : (exec step guard s es).any P = true) :
    ∃ t, Run step allowed s es t ∧ P t = true := by
  cases executed : exec step guard s es with
  | none => simp [executed] at checked
  | some t => exact ⟨t, .of_exec admits executed, by simpa [executed] using checked⟩

theorem Run.of_checks (step : S → E → Option S) (guard : S → E → Bool) (s : S) (es fs : List E)
    (P Q : S → Bool) {allowed : S → E → Prop} (admits : ∀ s e, guard s e = true → allowed s e)
    (checked : (exec step guard s es).any
      (fun t => P t && (exec step guard t fs).any Q) = true) :
    ∃ t u, Run step allowed s es t ∧ P t = true ∧ Run step allowed t fs u ∧ Q u = true := by
  obtain ⟨t, first, both⟩ := Run.of_check step guard s es _ admits checked
  obtain ⟨middle, rest⟩ := Bool.and_eq_true_iff.mp both
  obtain ⟨u, second, final⟩ := Run.of_check step guard t fs Q admits rest
  exact ⟨t, u, first, middle, second, final⟩

/-- The events that a machine passes on to another one, each in the state that it is in then. -/
def passed {F : Type} (step : S → E → Option S) (passes : S → E → List F) (s : S) :
    List E → List F
  | [] => []
  | e :: es => passes s e ++ match step s e with
    | some t => passed step passes t es
    | none => []

/-! How often a run does something, bounded by a measure. -/
section Measure
variable {step : S → E → Option S} {allowed : S → E → Prop}

/-- The events of a kind among those that are taken one after another. -/
def stepsOf (step : S → E → Option S) (kind : S → E → Prop) [∀ s e, Decidable (kind s e)]
    (s : S) : List E → Nat
  | [] => 0
  | e :: es => (if kind s e then 1 else 0) + match step s e with
    | some t => stepsOf step kind t es
    | none => 0

theorem Run.measure_stepsOf {kind : S → E → Prop} [∀ s e, Decidable (kind s e)] (I : S → Prop)
    (measure : S → Nat)
    (keeps : ∀ {s e t}, I s → allowed s e → step s e = some t → I t)
    (falls : ∀ {s e t}, I s → allowed s e → step s e = some t →
      measure t ≤ measure s ∧ (kind s e → measure t < measure s))
    (run : Run step allowed s es t) (initial : I s) :
    measure t + stepsOf step kind s es ≤ measure s := by
  induction run with
  | refl => exact le_rfl
  | @next s e t es u admitted stepped _ ih =>
      have rest := ih (keeps initial admitted stepped)
      obtain ⟨kept, fell⟩ := falls initial admitted stepped
      simp only [stepsOf, stepped]
      split
      · rename_i counted
        have less := fell counted
        omega
      · omega

end Measure

/-! A state that keeps its parties in a list changes one slot or adds one at the end. -/

theorem get_set_cases {slots : List α} {i j : Nat} (found : (slots.set i x)[j]? = some y) :
    (j = i ∧ y = x) ∨ (j ≠ i ∧ slots[j]? = some y) := by
  by_cases same : j = i
  · subst same
    obtain ⟨bound, same⟩ := List.getElem?_eq_some_iff.mp found
    exact .inl ⟨rfl, by simpa using same.symm⟩
  · exact .inr ⟨same, by rwa [List.getElem?_set_ne (Ne.symm same)] at found⟩

theorem get_set_self {slots : List α} {i : Nat} (found : slots[i]? = some y) :
    (slots.set i x)[i]? = some x := by
  rw [List.getElem?_set_self (List.getElem?_eq_some_iff.mp found).1]

theorem get_push_cases {slots : List α} {j : Nat} (found : (slots ++ [x])[j]? = some y) :
    (j = slots.length ∧ y = x) ∨ slots[j]? = some y := by
  rcases Nat.lt_or_ge j slots.length with old | new
  · exact .inr (by rwa [List.getElem?_append_left old] at found)
  · rw [List.getElem?_append_right new, List.getElem?_singleton] at found
    split at found
    · exact .inl ⟨by omega, (Option.some.inj found).symm⟩
    · contradiction

theorem get_push_old {slots : List α} {j : Nat} (found : slots[j]? = some y) :
    (slots ++ [x])[j]? = some y := by
  rw [List.getElem?_append_left (List.getElem?_eq_some_iff.mp found).1, found]

end Transition
