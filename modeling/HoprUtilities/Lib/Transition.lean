import Mathlib.Tactic.Common

/-!
# Runs of a partial step function

A system is a step function on labelled steps; a label that is not enabled
has no successor.  Restricting the labels gives another system, so a statement
about the runs whose steps all satisfy a condition is one about all runs
of the restricted system.
-/

namespace HoprUtilities.Lib

variable {σ ℓ : Type}

/-- Take the steps one after the other. -/
def run (step : σ → ℓ → Option σ) : List ℓ → σ → Option σ
  | [], state => some state
  | label :: rest, state => (step state label).bind (run step rest)

theorem run_append (step : σ → ℓ → Option σ) (labels more : List ℓ)
    (start : σ) :
    run step (labels ++ more) start =
      (run step labels start).bind (run step more) := by
  induction labels generalizing start with
  | nil => rfl
  | cons label rest induction =>
      cases taken : step start label with
      | none => simp [run, taken]
      | some next => simp [run, taken, induction]

def Reachable (step : σ → ℓ → Option σ) (start final : σ) : Prop :=
  ∃ labels, run step labels start = some final

theorem Reachable.refl {step : σ → ℓ → Option σ} {start : σ} :
    Reachable step start start :=
  ⟨[], rfl⟩

theorem Reachable.trans {step : σ → ℓ → Option σ} {start middle final : σ}
    (first : Reachable step start middle)
    (second : Reachable step middle final) : Reachable step start final := by
  obtain ⟨labels, begun⟩ := first
  obtain ⟨more, ended⟩ := second
  refine ⟨labels ++ more, ?_⟩
  rw [run_append, begun]
  exact ended

theorem Reachable.snoc {step : σ → ℓ → Option σ} {start middle final : σ}
    {label : ℓ} (reachable : Reachable step start middle)
    (taken : step middle label = some final) : Reachable step start final :=
  reachable.trans ⟨[label], Option.bind_eq_some_iff.mpr ⟨final, taken, rfl⟩⟩

/-- The system that only takes the allowed steps. -/
def restrict (allowed : σ → ℓ → Bool) (step : σ → ℓ → Option σ)
    (state : σ) (label : ℓ) : Option σ :=
  if allowed state label then step state label else none

theorem step_of_restrict {allowed : σ → ℓ → Bool}
    {step : σ → ℓ → Option σ} {state next : σ} {label : ℓ}
    (taken : restrict allowed step state label = some next) :
    allowed state label = true ∧ step state label = some next := by
  unfold restrict at taken
  split_ifs at taken with holds
  exact ⟨holds, taken⟩

theorem run_of_restrict {allowed : σ → ℓ → Bool} {step : σ → ℓ → Option σ}
    {labels : List ℓ} :
    ∀ {start final : σ}, run (restrict allowed step) labels start =
      some final → run step labels start = some final := by
  induction labels with
  | nil =>
      intro start final ended
      exact ended
  | cons label rest induction =>
      intro start final ended
      obtain ⟨next, taken, tail⟩ := Option.bind_eq_some_iff.mp ended
      obtain ⟨_, stepped⟩ := step_of_restrict taken
      exact Option.bind_eq_some_iff.mpr ⟨next, stepped, induction tail⟩

theorem exists_run {step : σ → ℓ → Option σ} {labels : List ℓ} {start : σ}
    (test : σ → Bool) (passed : (run step labels start).any test = true) :
    ∃ final, run step labels start = some final ∧ test final = true := by
  simpa only [Option.any_eq_true] using passed

theorem run_invariant {step : σ → ℓ → Option σ} {invariant : σ → Prop}
    (closed : ∀ state label next, step state label = some next →
      invariant state → invariant next) :
    ∀ {labels : List ℓ} {start final : σ},
      run step labels start = some final → invariant start →
      invariant final := by
  intro labels
  induction labels with
  | nil =>
      intro start final ended holds
      cases ended
      exact holds
  | cons label rest induction =>
      intro start final ended holds
      obtain ⟨next, taken, tail⟩ := Option.bind_eq_some_iff.mp ended
      exact induction tail (closed start label next taken holds)

theorem run_backwards {step : σ → ℓ → Option σ} {good : σ → Prop}
    (back : ∀ state label next, step state label = some next →
      good next → good state) :
    ∀ {labels : List ℓ} {start final : σ},
      run step labels start = some final → good final → good start := by
  intro labels
  induction labels with
  | nil =>
      intro start final ended holds
      cases ended
      exact holds
  | cons label rest induction =>
      intro start final ended holds
      obtain ⟨next, taken, tail⟩ := Option.bind_eq_some_iff.mp ended
      exact back start label next taken (induction tail holds)

/-- An invariant that every step from a good state preserves holds at the end
of every run to a good state, if only good states lead to good ones. -/
theorem run_invariant_of_good {step : σ → ℓ → Option σ}
    {good invariant : σ → Prop}
    (back : ∀ state label next, step state label = some next →
      good next → good state)
    (closed : ∀ state label next, step state label = some next →
      good state → invariant state → invariant next) :
    ∀ {labels : List ℓ} {start final : σ},
      run step labels start = some final → good final → invariant start →
      invariant final := by
  intro labels
  induction labels with
  | nil =>
      intro start final ended _ holds
      cases ended
      exact holds
  | cons label rest induction =>
      intro start final ended isGood holds
      have early := run_backwards back ended isGood
      obtain ⟨next, taken, tail⟩ := Option.bind_eq_some_iff.mp ended
      exact induction tail isGood (closed start label next taken early holds)

/-- The states of a run, the first one included. -/
def moments (step : σ → ℓ → Option σ) : List ℓ → σ → List σ
  | [], state => [state]
  | label :: rest, state =>
      state :: ((step state label).map (moments step rest)).getD []

/-- What every step preserves about a state and the states before it holds at
the end of every run. -/
theorem run_history {step : σ → ℓ → Option σ}
    {invariant : List σ → σ → Prop}
    (closed : ∀ past state label next, step state label = some next →
      invariant (past ++ [state]) state →
      invariant (past ++ [state] ++ [next]) next) :
    ∀ {labels : List ℓ} {past : List σ} {start final : σ},
      run step labels start = some final →
      invariant (past ++ [start]) start →
      invariant (past ++ moments step labels start) final := by
  intro labels
  induction labels with
  | nil =>
      intro past start final ended holds
      cases ended
      exact holds
  | cons label rest induction =>
      intro past start final ended holds
      obtain ⟨next, taken, tail⟩ := Option.bind_eq_some_iff.mp ended
      have continued :=
        induction tail (closed past start label next taken holds)
      rw [List.append_assoc] at continued
      rw [moments, taken]
      exact continued

/-- What every step does to the state, a run does between any two of its
states. -/
theorem pairwise_moments {step : σ → ℓ → Option σ} {invariant : σ → Prop}
    {related : σ → σ → Prop}
    (closed : ∀ state label next, step state label = some next →
      invariant state → invariant next ∧ related state next)
    (refl : ∀ state, related state state)
    (trans : ∀ {first second third}, related first second →
      related second third → related first third) :
    ∀ {labels : List ℓ} {start final : σ},
      run step labels start = some final → invariant start →
      (∀ moment ∈ moments step labels start, related start moment) ∧
        (moments step labels start).Pairwise related := by
  intro labels
  induction labels with
  | nil =>
      intro start final _ _
      simp only [moments, List.mem_singleton, forall_eq]
      exact ⟨refl start, List.pairwise_singleton related start⟩
  | cons label rest induction =>
      intro start final ended holds
      obtain ⟨next, taken, tail⟩ := Option.bind_eq_some_iff.mp ended
      obtain ⟨kept, moved⟩ := closed start label next taken holds
      obtain ⟨later, pairs⟩ := induction tail kept
      have after : ∀ moment ∈ moments step rest next, related start moment :=
        fun moment member => trans moved (later moment member)
      rw [moments, taken, Option.map_some, Option.getD_some,
        List.forall_mem_cons, List.pairwise_cons]
      exact ⟨⟨refl start, after⟩, after, pairs⟩

/-- What every step preserves about the steps taken and the state holds at the
end of every run. -/
theorem run_taken {step : σ → ℓ → Option σ} {invariant : List ℓ → σ → Prop}
    (closed : ∀ past state label next, step state label = some next →
      invariant past state → invariant (past ++ [label]) next) :
    ∀ {labels past : List ℓ} {start final : σ},
      run step labels start = some final → invariant past start →
      invariant (past ++ labels) final := by
  intro labels
  induction labels with
  | nil =>
      intro past start final ended holds
      cases ended
      rw [List.append_nil]
      exact holds
  | cons label rest induction =>
      intro past start final ended holds
      obtain ⟨next, taken, tail⟩ := Option.bind_eq_some_iff.mp ended
      have continued :=
        induction tail (closed past start label next taken holds)
      rw [List.append_assoc] at continued
      exact continued

theorem run_after {step : σ → ℓ → Option σ} {before after : List ℓ}
    {label : ℓ} {start state next final : σ}
    (ended : run step (before ++ label :: after) start = some final)
    (reached : run step before start = some state)
    (taken : step state label = some next) :
    run step after next = some final := by
  rw [run_append, reached, Option.bind_some, run, taken,
    Option.bind_some] at ended
  exact ended

theorem moments_of_restrict {allowed : σ → ℓ → Bool}
    {step : σ → ℓ → Option σ} {labels : List ℓ} :
    ∀ {start final : σ}, run (restrict allowed step) labels start =
      some final →
      moments (restrict allowed step) labels start =
        moments step labels start := by
  induction labels with
  | nil =>
      intro start final _
      rfl
  | cons label rest induction =>
      intro start final ended
      obtain ⟨next, taken, tail⟩ := Option.bind_eq_some_iff.mp ended
      obtain ⟨_, stepped⟩ := step_of_restrict taken
      rw [moments, moments, taken, stepped, Option.map_some, Option.map_some,
        induction tail]

/-- If the allowed steps are just those that keep a property, then a run passes
through states with the property only if and only if it is an allowed one. -/
theorem run_restrict_iff {allowed : σ → ℓ → Bool}
    {step : σ → ℓ → Option σ} {usual good : σ → Prop}
    (exactly : ∀ state label next, step state label = some next →
      usual state → good state →
      (good next ↔ allowed state label = true)) :
    ∀ {labels : List ℓ} {start final : σ},
      run step labels start = some final →
      (∀ moment ∈ moments step labels start, usual moment) → good start →
      ((∀ moment ∈ moments step labels start, good moment) ↔
        run (restrict allowed step) labels start = some final) := by
  intro labels
  induction labels with
  | nil =>
      intro start final ended _ holds
      simp only [moments, List.mem_singleton, forall_eq]
      exact iff_of_true holds ended
  | cons label rest induction =>
      intro start final ended ordinary holds
      obtain ⟨next, taken, tail⟩ := Option.bind_eq_some_iff.mp ended
      simp only [moments, taken, Option.map_some, Option.getD_some,
        List.forall_mem_cons] at ordinary ⊢
      have kept := exactly start label next taken ordinary.1 holds
      by_cases accepted : allowed start label = true
      · have restricted : restrict allowed step start label = some next := by
          rw [restrict, if_pos accepted, taken]
        rw [run, restricted, Option.bind_some,
          ← induction tail ordinary.2 (kept.mpr accepted)]
        exact and_iff_right holds
      · have refused : restrict allowed step start label = none :=
          if_neg accepted
        rw [run, refused]
        have spoilt : ¬good next := fun still => accepted (kept.mp still)
        have first : next ∈ moments step rest next := by
          cases rest <;> exact List.mem_cons_self
        exact iff_of_false (fun all => spoilt (all.2 next first))
          (fun none => nomatch none)

/-- If every step from related states can be taken, and leads to related
states, then so can and does every run. -/
theorem run_simulates {α : Type} {step : σ → ℓ → Option σ}
    {spec : α → ℓ → α} {related : σ → α → Prop} {allowed : ℓ → Prop}
    (forward : ∀ state abstract label, allowed label →
      related state abstract →
      ∃ next, step state label = some next ∧
        related next (spec abstract label)) :
    ∀ {labels : List ℓ} {state : σ} {abstract : α},
      (∀ label ∈ labels, allowed label) → related state abstract →
      ∃ final, run step labels state = some final ∧
        related final (labels.foldl spec abstract) := by
  intro labels
  induction labels with
  | nil =>
      intro state abstract _ start
      exact ⟨state, rfl, start⟩
  | cons label rest induction =>
      intro state abstract all start
      obtain ⟨next, taken, next_related⟩ :=
        forward state abstract label (all label List.mem_cons_self) start
      obtain ⟨final, ended, final_related⟩ :=
        induction (fun other member =>
          all other (List.mem_cons_of_mem _ member)) next_related
      exact ⟨final, Option.bind_eq_some_iff.mpr ⟨next, taken, ended⟩,
        final_related⟩

theorem Reachable.invariant {step : σ → ℓ → Option σ}
    {invariant : σ → Prop} {start final : σ}
    (reachable : Reachable step start final)
    (closed : ∀ state label next, step state label = some next →
      invariant state → invariant next)
    (initially : invariant start) : invariant final := by
  obtain ⟨labels, ended⟩ := reachable
  exact run_invariant closed ended initially

end HoprUtilities.Lib
