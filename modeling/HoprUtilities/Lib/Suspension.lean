import Mathlib.Tactic.Common

/-!
# Code that stops at an unanswered call

Resumable code is a computation in `EStateM ι σ`.  It either ends with a
value, or it stops at a call `ι` to its environment that has not been
answered.  The state is kept in both cases, so that letting the environment
fall silent at an arbitrary place exhibits every intermediate point of a run.

`Triple` is the corresponding judgment: one assertion about the states in
which the code may end and one about the states in which it may stop.
-/

namespace HoprUtilities.Lib

variable {ι κ σ τ α β : Type}

/-- Started in `pre`, the code can only end in `post` and only stop in
`stopped`. -/
def Triple (pre : σ → Prop) (code : EStateM ι σ α)
    (post : α → σ → Prop) (stopped : ι → σ → Prop) : Prop :=
  ∀ state, pre state →
    match code state with
    | .ok value final => post value final
    | .error call final => stopped call final

/-- Run code on a part of the state.  A call of the inner code is reported
under the name `tag` gives it. -/
def zoom (tag : ι → κ) (view : σ → τ) (put : τ → σ → σ)
    (code : EStateM ι τ α) : EStateM κ σ α := fun state =>
  match code (view state) with
  | .ok value inner => .ok value (put inner state)
  | .error call inner => .error (tag call) (put inner state)

/-- The run of `code` from `start` can be observed in `final`: it has ended
there or it stops there. -/
def Observed (code : EStateM ι σ α) (start final : σ) : Prop :=
  (∃ value, code start = .ok value final) ∨
    ∃ call, code start = .error call final

/-- The state in which the run of `code` from `start` is observed. -/
def halt (code : EStateM ι σ α) (start : σ) : σ :=
  match code start with
  | .ok _ final => final
  | .error _ final => final

/-- The value with which the run of `code` from `start` ends, if it does. -/
def value? (code : EStateM ι σ α) (start : σ) : Option α :=
  match code start with
  | .ok value _ => some value
  | .error _ _ => none

/-- What the run of `code` from `start` comes to: the value with which it ends,
or the call at which it stops. -/
def outcome (code : EStateM ι σ α) (start : σ) : Except ι α :=
  match code start with
  | .ok value _ => .ok value
  | .error call _ => .error call

theorem observed_halt (code : EStateM ι σ α) (start : σ) :
    Observed code start (halt code start) := by
  unfold Observed halt
  cases code start with
  | ok value final => exact .inl ⟨value, rfl⟩
  | error call final => exact .inr ⟨call, rfl⟩

theorem eq_ok_of_value? {code : EStateM ι σ α} {start : σ} {value : α}
    (ended : value? code start = some value) :
    code start = .ok value (halt code start) := by
  unfold value? at ended
  unfold halt
  split at ended
  · next result final equality =>
      cases ended
      rw [equality]
  · cases ended

namespace Triple

variable {pre pre' : σ → Prop} {post post' : α → σ → Prop}
  {stopped stopped' : ι → σ → Prop}

theorem pure {value : α} (holds : ∀ state, pre state → post value state) :
    Triple pre (Pure.pure value : EStateM ι σ α) post stopped := by
  intro state entered
  exact holds state entered

theorem throw {call : ι} (holds : ∀ state, pre state → stopped call state) :
    Triple pre (MonadExcept.throw call : EStateM ι σ α) post stopped := by
  intro state entered
  exact holds state entered

theorem bind (middle : β → σ → Prop)
    {first : EStateM ι σ β} {next : β → EStateM ι σ α}
    (head : Triple pre first middle stopped)
    (tail : ∀ value, Triple (middle value) (next value) post stopped) :
    Triple pre (first >>= next) post stopped := by
  intro state entered
  have headHolds := head state entered
  change match EStateM.bind first next state with
    | .ok value final => post value final
    | .error call final => stopped call final
  unfold EStateM.bind
  cases result : first state with
  | ok value final =>
      rw [result] at headHolds
      exact tail value final headHolds
  | error call final =>
      rw [result] at headHolds
      exact headHolds

theorem get_bind {next : σ → EStateM ι σ α}
    (tail : ∀ state, pre state →
      Triple (· = state) (next state) post stopped) :
    Triple pre (get >>= next) post stopped := by
  intro state entered
  exact tail state entered state rfl

theorem modify_bind {update : σ → σ} {next : PUnit → EStateM ι σ α}
    (tail : ∀ state, pre state →
      Triple (· = update state) (next ⟨⟩) post stopped) :
    Triple pre (modify update >>= next) post stopped := by
  intro state entered
  exact tail state entered (update state) rfl

theorem consequence {code : EStateM ι σ α}
    (triple : Triple pre code post stopped)
    (weaker : ∀ state, pre' state → pre state)
    (ends : ∀ value state, post value state → post' value state)
    (stops : ∀ call state, stopped call state → stopped' call state) :
    Triple pre' code post' stopped' := by
  intro state entered
  have holds := triple state (weaker state entered)
  cases result : code state with
  | ok value final =>
      rw [result] at holds
      exact ends value final holds
  | error call final =>
      rw [result] at holds
      exact stops call final holds

theorem strengthenPre {code : EStateM ι σ α}
    (triple : Triple pre code post stopped)
    (stronger : ∀ state, pre' state → pre state) :
    Triple pre' code post stopped :=
  triple.consequence stronger (fun _ _ ends => ends) (fun _ _ stops => stops)

theorem startingAt {code : EStateM ι σ α} {state : σ}
    (triple : Triple pre code post stopped) (entered : pre state) :
    Triple (· = state) code post stopped := by
  apply triple.strengthenPre
  intro start same
  rw [same]
  exact entered

/-- A triple about every single starting state is a triple about their
union. -/
theorem of_forall {code : EStateM ι σ α}
    (each : ∀ state, pre state → Triple (· = state) code post stopped) :
    Triple pre code post stopped := by
  intro state entered
  exact each state entered state rfl

theorem ok {code : EStateM ι σ α} {state final : σ} {value : α}
    (triple : Triple pre code post stopped) (entered : pre state)
    (ended : code state = .ok value final) : post value final := by
  have holds := triple state entered
  rwa [ended] at holds

theorem error {code : EStateM ι σ α} {state final : σ} {call : ι}
    (triple : Triple pre code post stopped) (entered : pre state)
    (ended : code state = .error call final) : stopped call final := by
  have holds := triple state entered
  rwa [ended] at holds

/-- A triple whose assertions are cases of one is about the outcome. -/
theorem outcome {code : EStateM ι σ α} {start : σ}
    {comes : Except ι α → σ → Prop}
    (triple : Triple pre code (fun value => comes (.ok value))
      (fun call => comes (.error call)))
    (entered : pre start) : comes (outcome code start) (halt code start) := by
  have holds := triple start entered
  unfold Lib.outcome halt
  cases result : code start with
  | ok value final =>
      rw [result] at holds
      exact holds
  | error call final =>
      rw [result] at holds
      exact holds

/-- What holds wherever the code ends or stops holds wherever its run is
observed. -/
theorem observed {code : EStateM ι σ α} {start final : σ} {holds : σ → Prop}
    (triple : Triple pre code post stopped) (entered : pre start)
    (seen : Observed code start final)
    (ends : ∀ value state, post value state → holds state)
    (stops : ∀ call state, stopped call state → holds state) :
    holds final := by
  rcases seen with ⟨value, ended⟩ | ⟨call, halted⟩
  · exact ends value final (triple.ok entered ended)
  · exact stops call final (triple.error entered halted)

/-- The zoomed code is specified by the inner code on the part in view. -/
theorem zoom {tag : ι → κ} {view : σ → τ} {put : τ → σ → σ}
    {code : EStateM ι τ α} {stopped : κ → σ → Prop}
    (inner : ∀ state, pre state →
      Triple (· = view state) code
        (fun value part => post value (put part state))
        (fun call part => stopped (tag call) (put part state))) :
    Triple pre (Lib.zoom tag view put code) post stopped := by
  intro state entered
  have holds := inner state entered (view state) rfl
  unfold Lib.zoom
  cases result : code (view state) with
  | ok value part =>
      rw [result] at holds
      exact holds
  | error call part =>
      rw [result] at holds
      exact holds

end Triple

/-- The code on the richer state does what the plain code does on the part of
it that `view` shows. -/
def Erases (view : τ → σ) (rich : EStateM ι τ α) (plain : EStateM ι σ α) :
    Prop :=
  ∀ state,
    match rich state with
    | .ok value final => plain (view state) = .ok value (view final)
    | .error call final => plain (view state) = .error call (view final)

namespace Erases

variable {view : τ → σ}

theorem pure (value : α) :
    Erases view (Pure.pure value : EStateM ι τ α) (Pure.pure value) := by
  intro state
  rfl

theorem bind {rich : EStateM ι τ β} {plain : EStateM ι σ β}
    {richNext : β → EStateM ι τ α} {plainNext : β → EStateM ι σ α}
    (head : Erases view rich plain)
    (tail : ∀ value, Erases view (richNext value) (plainNext value)) :
    Erases view (rich >>= richNext) (plain >>= plainNext) := by
  intro state
  have headErases := head state
  change match EStateM.bind rich richNext state with
    | .ok value final =>
        EStateM.bind plain plainNext (view state) = .ok value (view final)
    | .error call final =>
        EStateM.bind plain plainNext (view state) = .error call (view final)
  unfold EStateM.bind
  cases result : rich state with
  | ok value final =>
      rw [result] at headErases
      rw [headErases]
      exact tail value final
  | error call final =>
      rw [result] at headErases
      rw [headErases]

theorem get_bind {richNext : τ → EStateM ι τ α}
    {plainNext : σ → EStateM ι σ α}
    (tail : ∀ state, Erases view (richNext state) (plainNext (view state))) :
    Erases view (get >>= richNext) (get >>= plainNext) := by
  intro state
  exact tail state state

theorem modify_bind {richUpdate : τ → τ} {plainUpdate : σ → σ}
    {richNext : PUnit → EStateM ι τ α} {plainNext : PUnit → EStateM ι σ α}
    (same : ∀ state, view (richUpdate state) = plainUpdate (view state))
    (tail : Erases view (richNext ⟨⟩) (plainNext ⟨⟩)) :
    Erases view (modify richUpdate >>= richNext)
      (modify plainUpdate >>= plainNext) := by
  intro state
  have erased := tail (richUpdate state)
  rw [same] at erased
  exact erased

theorem zoom {put : σ → τ → τ} (code : EStateM ι σ α)
    (seen : ∀ part state, view (put part state) = part) :
    Erases view (Lib.zoom id view put code) code := by
  intro state
  unfold Lib.zoom
  cases result : code (view state) with
  | ok value part =>
      dsimp only
      rw [seen]
  | error call part =>
      dsimp only
      rw [seen]
      rfl

theorem observed {rich : EStateM ι τ α} {plain : EStateM ι σ α}
    {start final : τ} (erases : Erases view rich plain)
    (seen : Observed rich start final) :
    Observed plain (view start) (view final) := by
  have erased := erases start
  rcases seen with ⟨value, ended⟩ | ⟨call, halted⟩
  · rw [ended] at erased
    exact .inl ⟨value, erased⟩
  · rw [halted] at erased
    exact .inr ⟨call, erased⟩

end Erases

end HoprUtilities.Lib
