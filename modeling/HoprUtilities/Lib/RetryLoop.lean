import HoprUtilities.Lib.Threads
import HoprUtilities.Lib.Transition
import Mathlib.Data.List.Chain
import Mathlib.Data.List.Nodup

/-!
# Retry loops over an atomic cell

A call loads the cell and decides from what it has loaded: it returns, or tries
to exchange the loaded value for a new one.  If the cell holds another value by
then, the call starts again.  The calls take their steps in any order.  A load
may answer with any value that the cell has held, as a relaxed one may; an
exchange compares with the present one.

In every order the cell goes from one value to another one only if a call has
decided so.
-/

namespace HoprUtilities.Lib.RetryLoop

variable {ι α β : Type}

/-- The decision of a call.  The answer of an exchange is returned when it
succeeds. -/
inductive Round (α β : Type) where
  | leave (answer : β)
  | exchange (new : α) (answer : β)
  deriving DecidableEq

inductive Pc (α β : Type) where
  | load
  | exchange (expected new : α) (answer : β)
  | returned (answer : β)
  deriving DecidableEq

structure Call (ι α β : Type) where
  input : ι
  pc : Pc α β
  deriving DecidableEq

/-- The calls that have succeeded stand in `exchanges`, in the order of their
exchanges and with the values that they have stored. -/
structure State (ι α β : Type) where
  initial : α
  value : α
  calls : List (Call ι α β)
  exchanges : List (Nat × α)
  deriving DecidableEq

inductive Label (ι α : Type) where
  | call (input : ι)
  | load (index : Nat) (seen : α)
  | exchange (index : Nat)
  deriving DecidableEq

def Label.caller? : Label ι α → Option Nat
  | .call _ => none
  | .load index _ | .exchange index => some index

/-- A call goes on with the value that it has loaded. -/
def Call.decide (round : ι → α → Round α β) (call : Call ι α β) (seen : α) :
    Call ι α β :=
  { call with
    pc :=
      match round call.input seen with
      | .leave answer => .returned answer
      | .exchange new answer => .exchange seen new answer }

namespace State

def start (initial : α) : State ι α β where
  initial := initial
  value := initial
  calls := []
  exchanges := []

/-- The values that the cell has held. -/
def held (state : State ι α β) : List α :=
  state.initial :: state.exchanges.map Prod.snd

/-- The calls that have succeeded. -/
def winners (state : State ι α β) : List Nat := state.exchanges.map Prod.fst

@[simp] theorem held_calls (state : State ι α β)
    (calls : List (Call ι α β)) :
    held { state with calls := calls } = state.held := rfl

theorem held_concat (initial value : α) (calls : List (Call ι α β))
    (exchanges : List (Nat × α)) (index : Nat) (new : α) :
    held ⟨initial, value, calls, exchanges ++ [(index, new)]⟩ =
      (initial :: exchanges.map Prod.snd) ++ [new] := by
  simp [held]

theorem winners_concat (initial value : α) (calls : List (Call ι α β))
    (exchanges : List (Nat × α)) (index : Nat) (new : α) :
    winners ⟨initial, value, calls, exchanges ++ [(index, new)]⟩ =
      exchanges.map Prod.fst ++ [index] := by
  simp [winners]

variable [DecidableEq α] (round : ι → α → Round α β)

def step (state : State ι α β) : Label ι α → Option (State ι α β)
  | .call input =>
      some { state with calls := state.calls ++ [⟨input, .load⟩] }
  | .load index seen => do
      let call ← state.calls[index]?
      match call.pc with
      | .load =>
          if seen ∈ state.held then
            some
              { state with
                calls := state.calls.set index (call.decide round seen) }
          else none
      | _ => none
  | .exchange index => do
      let call ← state.calls[index]?
      match call.pc with
      | .exchange expected new answer =>
          if state.value = expected then
            some
              { state with
                value := new
                calls :=
                  state.calls.set index { call with pc := .returned answer }
                exchanges := state.exchanges ++ [(index, new)] }
          else
            some
              { state with
                calls := state.calls.set index { call with pc := .load } }
      | _ => none

end State

section Step

variable (round : ι → α → Round α β)

inductive Step (state : State ι α β) :
    Label ι α → State ι α β → Prop where
  | call (input : ι) :
      Step state (.call input)
        { state with calls := state.calls ++ [⟨input, .load⟩] }
  | load {index : Nat} {seen : α} {call : Call ι α β} :
      state.calls[index]? = some call → call.pc = .load →
      seen ∈ state.held →
      Step state (.load index seen)
        { state with
          calls := state.calls.set index (call.decide round seen) }
  | succeed {index : Nat} {call : Call ι α β} {new : α} {answer : β} :
      state.calls[index]? = some call →
      call.pc = .exchange state.value new answer →
      Step state (.exchange index)
        { state with
          value := new
          calls := state.calls.set index { call with pc := .returned answer }
          exchanges := state.exchanges ++ [(index, new)] }
  | retry {index : Nat} {call : Call ι α β} {expected new : α} {answer : β} :
      state.calls[index]? = some call →
      call.pc = .exchange expected new answer → state.value ≠ expected →
      Step state (.exchange index)
        { state with
          calls := state.calls.set index { call with pc := .load } }

theorem step_of_step? [DecidableEq α] {state next : State ι α β}
    {label : Label ι α} (taken : state.step round label = some next) :
    Step round state label next := by
  cases label with
  | call input =>
      cases taken
      exact .call input
  | load index seen =>
      rw [State.step, Option.bind_eq_bind, Option.bind_eq_some_iff] at taken
      obtain ⟨call, current, taken⟩ := taken
      cases place : call.pc with
      | load =>
          simp only [place] at taken
          split_ifs at taken with known
          cases taken
          exact .load current place known
      | exchange expected new answer => simp [place] at taken
      | returned answer => simp [place] at taken
  | exchange index =>
      rw [State.step, Option.bind_eq_bind, Option.bind_eq_some_iff] at taken
      obtain ⟨call, current, taken⟩ := taken
      cases place : call.pc with
      | load => simp [place] at taken
      | exchange expected new answer =>
          simp only [place] at taken
          split_ifs at taken with same
          · cases taken
            cases same
            exact .succeed current place
          · cases taken
            exact .retry current place same
      | returned answer => simp [place] at taken

theorem step?_of_step [DecidableEq α] {state next : State ι α β}
    {label : Label ι α} (step : Step round state label next) :
    state.step round label = some next := by
  cases step with
  | call input => rfl
  | load current place known => simp [State.step, current, place, known]
  | succeed current place => simp [State.step, current, place]
  | retry current place other => simp [State.step, current, place, other]

variable {round}

theorem Step.exchanges_grow {state next : State ι α β} {label : Label ι α}
    (step : Step round state label next) :
    state.exchanges <+: next.exchanges := by
  cases step with
  | call input => exact List.prefix_refl _
  | load current place known => exact List.prefix_refl _
  | succeed current place => exact List.prefix_append _ _
  | retry current place other => exact List.prefix_refl _

theorem Step.initial_eq {state next : State ι α β} {label : Label ι α}
    (step : Step round state label next) : next.initial = state.initial := by
  cases step <;> rfl

/-- The call at a place keeps its input, and what it has returned. -/
def Stays (before after : List (Call ι α β)) : Prop :=
  ∀ (place : Nat) (call : Call ι α β), before[place]? = some call →
    ∃ later, after[place]? = some later ∧ later.input = call.input ∧
      ∀ answer, call.pc = .returned answer → later = call

theorem Stays.refl (calls : List (Call ι α β)) : Stays calls calls :=
  fun _ call here => ⟨call, here, rfl, fun _ _ => rfl⟩

theorem Stays.set {calls : List (Call ι α β)} {index : Nat}
    {old new : Call ι α β} (current : calls[index]? = some old)
    (same : new.input = old.input)
    (running : ∀ answer, old.pc ≠ .returned answer) :
    Stays calls (calls.set index new) := by
  intro place call here
  by_cases own : index = place
  · subst own
    cases current.symm.trans here
    have bound := (List.getElem?_eq_some_iff.mp current).1
    exact ⟨new, List.getElem?_set_self bound, same,
      fun answer done => absurd done (running answer)⟩
  · exact ⟨call, (List.getElem?_set_ne own).trans here, rfl,
      fun _ _ => rfl⟩

theorem Step.stays {state next : State ι α β} {label : Label ι α}
    (step : Step round state label next) : Stays state.calls next.calls := by
  cases step with
  | call input =>
      intro place call here
      have bound := (List.getElem?_eq_some_iff.mp here).1
      exact ⟨call, (List.getElem?_append_left bound).trans here, rfl,
        fun _ _ => rfl⟩
  | load current ready known =>
      exact .set current rfl (fun _ done => by cases ready.symm.trans done)
  | succeed current ready =>
      exact .set current rfl (fun _ done => by cases ready.symm.trans done)
  | retry current ready other =>
      exact .set current rfl (fun _ done => by cases ready.symm.trans done)

theorem Step.length_le {state next : State ι α β} {label : Label ι α}
    (step : Step round state label next) :
    state.calls.length ≤ next.calls.length := by
  cases step with
  | call input => simp
  | load current place known => simp
  | succeed current place => simp
  | retry current place other => simp

theorem Step.value_cases {state next : State ι α β} {label : Label ι α}
    (step : Step round state label next) :
    next.value = state.value ∨
      ∃ index, label.caller? = some index ∧ index ∈ next.winners := by
  cases step with
  | call input => exact .inl rfl
  | load current place known => exact .inl rfl
  | @succeed index call new answer current place =>
      refine .inr ⟨index, rfl, ?_⟩
      simp [State.winners]
  | retry current place other => exact .inl rfl

end Step

section Sound

variable (round : ι → α → Round α β)

/-- Some call would go from the earlier value to the later one. -/
def Advances (earlier later : α) : Prop :=
  ∃ input answer, round input earlier = .exchange later answer

/-- The last decision of a call, by its place. -/
inductive Explained (state : State ι α β) (index : Nat) (input : ι) :
    Pc α β → Prop where
  | load :
      index ∉ state.winners → Explained state index input .load
  | exchange {expected new : α} {answer : β} :
      index ∉ state.winners → expected ∈ state.held →
      round input expected = .exchange new answer →
      Explained state index input (.exchange expected new answer)
  | left {seen : α} {answer : β} :
      index ∉ state.winners → seen ∈ state.held →
      round input seen = .leave answer →
      Explained state index input (.returned answer)
  | exchanged {earlier new : α} {answer : β} :
      (index, new) ∈ state.exchanges → earlier ∈ state.held →
      round input earlier = .exchange new answer →
      Explained state index input (.returned answer)

structure Sound (state : State ι α β) : Prop where
  present : state.held.getLast? = some state.value
  advances : state.held.IsChain (Advances round)
  single : state.winners.Nodup
  known : ∀ index ∈ state.winners, index < state.calls.length
  explained : ∀ index call, state.calls[index]? = some call →
    Explained round state index call.input call.pc

variable {round}

theorem State.held_subset {state next : State ι α β}
    (grown : state.exchanges <+: next.exchanges)
    (initial : next.initial = state.initial) :
    state.held ⊆ next.held := by
  unfold State.held
  rw [initial]
  exact List.cons_subset_cons _ (List.map_subset Prod.snd grown.subset)

theorem Explained.mono {state next : State ι α β} {index : Nat} {input : ι}
    {pc : Pc α β} (explained : Explained round state index input pc)
    (grown : state.exchanges <+: next.exchanges)
    (initial : next.initial = state.initial)
    (others : index ∈ next.winners → index ∈ state.winners) :
    Explained round next index input pc := by
  have held := State.held_subset grown initial
  cases explained with
  | load fresh => exact .load (fresh ∘ others)
  | exchange fresh known decided =>
      exact .exchange (fresh ∘ others) (held known) decided
  | left fresh known decided =>
      exact .left (fresh ∘ others) (held known) decided
  | exchanged member known decided =>
      exact .exchanged (grown.subset member) (held known) decided

theorem Explained.decide {state : State ι α β} {index : Nat}
    (call : Call ι α β) {seen : α} (fresh : index ∉ state.winners)
    (known : seen ∈ state.held) :
    Explained round state index call.input (call.decide round seen).pc := by
  unfold Call.decide
  cases decided : round call.input seen with
  | leave answer => exact .left fresh known decided
  | exchange new answer => exact .exchange fresh known decided

namespace Sound

theorem start (initial : α) : Sound round (State.start initial) where
  present := rfl
  advances := .singleton _
  single := List.nodup_nil
  known := by
    intro index member
    cases member
  explained := by
    intro index call current
    cases current

theorem value_mem {state : State ι α β} (sound : Sound round state) :
    state.value ∈ state.held :=
  List.mem_of_getLast? sound.present

theorem loading {state : State ι α β} (sound : Sound round state)
    {index : Nat} {call : Call ι α β}
    (current : state.calls[index]? = some call) (place : call.pc = .load) :
    index ∉ state.winners := by
  have explained := sound.explained index call current
  rw [place] at explained
  cases explained with
  | load fresh => exact fresh

theorem pending {state : State ι α β} (sound : Sound round state)
    {index : Nat} {call : Call ι α β} {expected new : α} {answer : β}
    (current : state.calls[index]? = some call)
    (place : call.pc = .exchange expected new answer) :
    index ∉ state.winners ∧
      round call.input expected = .exchange new answer := by
  have explained := sound.explained index call current
  rw [place] at explained
  cases explained with
  | exchange fresh known decided => exact ⟨fresh, decided⟩

theorem call {state : State ι α β} (sound : Sound round state) (input : ι) :
    Sound round
      { state with calls := state.calls ++ [⟨input, .load⟩] } where
  present := sound.present
  advances := sound.advances
  single := sound.single
  known := by
    intro index member
    have bound := sound.known index member
    simp only [List.length_append, List.length_singleton]
    omega
  explained := by
    intro index call current
    rcases getElem?_concat_cases current with old | ⟨rfl, rfl⟩
    · exact (sound.explained index call old).mono (List.prefix_refl _) rfl id
    · refine .load fun member => ?_
      exact Nat.lt_irrefl _ (sound.known _ member)

theorem move {state : State ι α β} (sound : Sound round state) {index : Nat}
    {call : Call ι α β}
    (explained : Explained round state index call.input call.pc) :
    Sound round { state with calls := state.calls.set index call } where
  present := sound.present
  advances := sound.advances
  single := sound.single
  known := by
    intro winner member
    rw [List.length_set]
    exact sound.known winner member
  explained := by
    intro place other here
    rcases getElem?_set_cases here with ⟨rfl, rfl⟩ | ⟨apart, there⟩
    · exact explained.mono (List.prefix_refl _) rfl id
    · exact (sound.explained place other there).mono (List.prefix_refl _) rfl
        id

theorem succeed {state : State ι α β} (sound : Sound round state)
    {index : Nat} {call : Call ι α β} {new : α} {answer : β}
    (current : state.calls[index]? = some call)
    (fresh : index ∉ state.winners)
    (decided : round call.input state.value = .exchange new answer) :
    Sound round
      { state with
        value := new
        calls := state.calls.set index { call with pc := .returned answer }
        exchanges := state.exchanges ++ [(index, new)] } where
  present := by
    rw [State.held_concat, List.getLast?_concat]
  advances := by
    rw [State.held_concat, List.isChain_append]
    refine ⟨sound.advances, .singleton _, ?_⟩
    intro earlier last later first
    obtain rfl : state.value = earlier :=
      Option.some.inj (sound.present.symm.trans last)
    cases first
    exact ⟨call.input, answer, decided⟩
  single := by
    rw [State.winners_concat, List.nodup_append]
    refine ⟨sound.single, by simp, ?_⟩
    intro winner member other last same
    rw [List.mem_singleton.mp last] at same
    exact fresh (same ▸ member)
  known := by
    intro winner member
    rw [State.winners_concat, List.mem_append, List.mem_singleton] at member
    rw [List.length_set]
    rcases member with old | rfl
    · exact sound.known winner old
    · exact (List.getElem?_eq_some_iff.mp current).1
  explained := by
    have grown : state.exchanges <+: state.exchanges ++ [(index, new)] :=
      List.prefix_append _ _
    intro place other here
    rcases getElem?_set_cases here with ⟨rfl, rfl⟩ | ⟨apart, there⟩
    · refine .exchanged (List.mem_append_right _ List.mem_cons_self) ?_ decided
      rw [State.held_concat]
      exact List.mem_append_left [new] sound.value_mem
    · refine (sound.explained place other there).mono grown rfl ?_
      intro member
      rw [State.winners_concat, List.mem_append, List.mem_singleton] at member
      exact member.resolve_right apart

theorem step {state next : State ι α β} {label : Label ι α}
    (sound : Sound round state) (step : Step round state label next) :
    Sound round next := by
  cases step with
  | call input => exact sound.call input
  | @load index seen call current place known =>
      exact sound.move (.decide call (sound.loading current place) known)
  | succeed current place =>
      obtain ⟨fresh, decided⟩ := sound.pending current place
      exact sound.succeed current fresh decided
  | retry current place different =>
      exact sound.move (.load (sound.pending current place).1)

theorem exists_call {state : State ι α β} (sound : Sound round state)
    {index : Nat} (winner : index ∈ state.winners) :
    ∃ call, state.calls[index]? = some call :=
  ⟨_, List.getElem?_eq_getElem (sound.known index winner)⟩

/-- A call that has succeeded has decided on the value that it has stored. -/
theorem exchanged {state : State ι α β} (sound : Sound round state)
    {index : Nat} {call : Call ι α β} {new : α}
    (current : state.calls[index]? = some call)
    (member : (index, new) ∈ state.exchanges) :
    ∃ earlier ∈ state.held, ∃ answer,
      round call.input earlier = .exchange new answer ∧
        call.pc = .returned answer := by
  have winner : index ∈ state.winners := List.mem_map_of_mem member
  have explained := sound.explained index call current
  generalize place : call.pc = pc at explained
  cases explained with
  | load fresh => exact absurd winner fresh
  | exchange fresh known decided => exact absurd winner fresh
  | left fresh known decided => exact absurd winner fresh
  | @exchanged earlier other answer stored known decided =>
      have same : (index, new) = (index, other) :=
        List.inj_on_of_nodup_map sound.single member stored rfl
      cases same
      exact ⟨earlier, known, answer, decided, rfl⟩

/-- A call has returned what it decided, with or without an exchange. -/
theorem returned {state : State ι α β} (sound : Sound round state)
    {index : Nat} {call : Call ι α β} {answer : β}
    (current : state.calls[index]? = some call)
    (place : call.pc = .returned answer) :
    (∃ seen ∈ state.held, round call.input seen = .leave answer) ∨
      ∃ new, (index, new) ∈ state.exchanges ∧
        ∃ earlier ∈ state.held,
          round call.input earlier = .exchange new answer := by
  have explained := sound.explained index call current
  rw [place] at explained
  cases explained with
  | @left seen _ fresh known decided => exact .inl ⟨seen, known, decided⟩
  | @exchanged earlier new _ member known decided =>
      exact .inr ⟨new, member, earlier, known, decided⟩

end Sound

theorem Sound.value_cases {state next : State ι α β} {label : Label ι α}
    (sound : Sound round state) (step : Step round state label next) :
    next.value = state.value ∨ Advances round state.value next.value := by
  cases step with
  | call input => exact .inl rfl
  | load current place known => exact .inl rfl
  | @succeed index call new answer current place =>
      exact .inr ⟨call.input, answer, (sound.pending current place).2⟩
  | retry current place other => exact .inl rfl

end Sound

section Run

variable [DecidableEq α] {round : ι → α → Round α β}

theorem sound_of_reachable {state final : State ι α β}
    (reachable : Reachable (State.step round) state final)
    (sound : Sound round state) : Sound round final :=
  reachable.invariant
    (fun _ _ _ taken sound => sound.step (step_of_step? round taken)) sound

theorem sound_of_run {labels : List (Label ι α)} {initial : α}
    {final : State ι α β}
    (ended : run (State.step round) labels (State.start initial) =
      some final) : Sound round final :=
  sound_of_reachable ⟨labels, ended⟩ (Sound.start initial)

theorem initial_of_run {labels : List (Label ι α)} {initial : α}
    {final : State ι α β}
    (ended : run (State.step round) labels (State.start initial) =
      some final) : final.initial = initial := by
  have closed : ∀ (state : State ι α β) (label : Label ι α)
      (next : State ι α β), state.step round label = some next →
      state.initial = initial → next.initial = initial := by
    intro state label next taken unchanged
    exact (step_of_step? round taken).initial_eq.trans unchanged
  exact run_invariant closed ended rfl

theorem exchanges_grow_of_run {labels : List (Label ι α)}
    {state final : State ι α β}
    (ended : run (State.step round) labels state = some final) :
    state.exchanges <+: final.exchanges := by
  have closed : ∀ (middle : State ι α β) (label : Label ι α)
      (next : State ι α β), middle.step round label = some next →
      state.exchanges <+: middle.exchanges →
      state.exchanges <+: next.exchanges := by
    intro middle label next taken grown
    exact grown.trans (step_of_step? round taken).exchanges_grow
  exact run_invariant closed ended (List.prefix_refl _)

/-- A step of a call that does not succeed in the run leaves the value. -/
theorem value_cases_of_run {before after : List (Label ι α)}
    {label : Label ι α} {start state next final : State ι α β}
    (ended : run (State.step round) (before ++ label :: after) start =
      some final)
    (reached : run (State.step round) before start = some state)
    (taken : state.step round label = some next) :
    next.value = state.value ∨
      ∃ index, label.caller? = some index ∧ index ∈ final.winners := by
  rcases (step_of_step? round taken).value_cases with
    same | ⟨index, caller, winner⟩
  · exact .inl same
  · have grown := exchanges_grow_of_run (run_after ended reached taken)
    exact .inr ⟨index, caller,
      List.map_subset Prod.fst grown.subset winner⟩

/-- What every decision does to the value, a run does between any two of its
states. -/
theorem pairwise_value {related : α → α → Prop}
    (decisions : ∀ earlier later, Advances round earlier later →
      related earlier later)
    (refl : ∀ value, related value value)
    (trans : ∀ {first second third}, related first second →
      related second third → related first third)
    {labels : List (Label ι α)} {initial : α} {final : State ι α β}
    (ended : run (State.step round) labels (State.start initial) =
      some final) :
    (moments (State.step round) labels (State.start initial)).Pairwise
      fun earlier later => related earlier.value later.value := by
  have closed : ∀ (state : State ι α β) (label : Label ι α)
      (next : State ι α β), state.step round label = some next →
      Sound round state →
      Sound round next ∧ related state.value next.value := by
    intro state label next taken sound
    have step := step_of_step? round taken
    refine ⟨sound.step step, ?_⟩
    rcases sound.value_cases step with same | advanced
    · rw [same]
      exact refl state.value
    · exact decisions _ _ advanced
  exact (pairwise_moments closed (fun state => refl state.value) trans ended
    (Sound.start initial)).2

end Run

/-! ## Progress

If every load sees the present value, a call only starts again after another
one has succeeded.
-/

section Progress

def taken (index : Nat) (labels : List (Label ι α)) : Nat :=
  labels.countP fun label => label.caller? == some index

theorem taken_concat (index : Nat) (labels : List (Label ι α))
    (label : Label ι α) :
    taken index (labels ++ [label]) =
      taken index labels + if label.caller? = some index then 1 else 0 := by
  simp [taken, List.countP_append, List.countP_singleton]

/-- How many steps a call may have taken after so many exchanges.  A call that
is about to fail has been paid for by the exchange that made it fail. -/
def Pc.Paid (value : α) (exchanges steps : Nat) : Pc α β → Prop
  | .load => steps ≤ 2 * exchanges
  | .exchange expected _ _ =>
      steps ≤ 2 * exchanges + 1 ∧
        (expected ≠ value → steps + 1 ≤ 2 * exchanges)
  | .returned _ => steps ≤ 2 * exchanges + 1

theorem Pc.Paid.exchanged {pc : Pc α β} {value : α} {exchanges steps : Nat}
    (paid : pc.Paid value exchanges steps) (new : α) :
    pc.Paid new (exchanges + 1) steps := by
  cases pc with
  | load =>
      simp only [Pc.Paid] at paid ⊢
      omega
  | exchange expected other answer =>
      simp only [Pc.Paid] at paid ⊢
      exact ⟨by omega, fun _ => by omega⟩
  | returned answer =>
      simp only [Pc.Paid] at paid ⊢
      omega

theorem Pc.Paid.le {pc : Pc α β} {value : α} {exchanges steps : Nat}
    (paid : pc.Paid value exchanges steps) : steps ≤ 2 * exchanges + 1 := by
  cases pc with
  | load => exact Nat.le_succ_of_le paid
  | exchange expected new answer => exact paid.1
  | returned answer => exact paid

structure Paid (labels : List (Label ι α)) (state : State ι α β) : Prop where
  absent : ∀ index, state.calls.length ≤ index → taken index labels = 0
  paid : ∀ (index : Nat) (call : Call ι α β),
    state.calls[index]? = some call →
      call.pc.Paid state.value state.exchanges.length (taken index labels)

namespace Paid

variable {labels : List (Label ι α)} {state : State ι α β}

theorem le (paid : Paid labels state) (index : Nat) :
    taken index labels ≤ 2 * state.exchanges.length + 1 := by
  by_cases inside : index < state.calls.length
  · exact (paid.paid index _ (List.getElem?_eq_getElem inside)).le
  · rw [paid.absent index (Nat.not_lt.mp inside)]
    exact Nat.zero_le _

theorem start (initial : α) :
    Paid [] (State.start initial : State ι α β) where
  absent := by
    intro index _
    rfl
  paid := by
    intro index call current
    cases current

theorem call (paid : Paid labels state) (input : ι) :
    Paid (labels ++ [.call input])
      { state with calls := state.calls ++ [⟨input, .load⟩] } where
  absent := by
    intro index outside
    rw [List.length_append, List.length_singleton] at outside
    rw [taken_concat, paid.absent index (by omega)]
    rfl
  paid := by
    intro index call here
    rw [taken_concat]
    rcases getElem?_concat_cases here with old | ⟨rfl, rfl⟩
    · exact paid.paid index call old
    · rw [paid.absent _ (Nat.le_refl _)]
      exact Nat.zero_le _

theorem move (paid : Paid labels state) {next : State ι α β}
    {index : Nat} {old new : Call ι α β} {label : Label ι α}
    (current : state.calls[index]? = some old)
    (moved : next.calls = state.calls.set index new)
    (mover : label.caller? = some index)
    (others : ∀ (pc : Pc α β) (steps : Nat),
      pc.Paid state.value state.exchanges.length steps →
      pc.Paid next.value next.exchanges.length steps)
    (enough : new.pc.Paid next.value next.exchanges.length
      (taken index labels + 1)) : Paid (labels ++ [label]) next where
  absent := by
    intro place outside
    rw [moved, List.length_set] at outside
    have inside := (List.getElem?_eq_some_iff.mp current).1
    have apart : label.caller? ≠ some place := by
      rw [mover]
      intro same
      cases same
      omega
    rw [taken_concat, if_neg apart, paid.absent place outside]
  paid := by
    intro place call here
    rw [moved] at here
    rcases getElem?_set_cases here with ⟨rfl, rfl⟩ | ⟨apart, there⟩
    · rw [taken_concat, if_pos mover]
      exact enough
    · have other : label.caller? ≠ some place := by
        rw [mover]
        intro same
        exact apart (Option.some.inj same).symm
      rw [taken_concat, if_neg other]
      exact others _ _ (paid.paid place call there)

theorem step {round : ι → α → Round α β} {next : State ι α β}
    {label : Label ι α} (paid : Paid labels state)
    (step : Step round state label next)
    (present : ∀ index seen, label = .load index seen →
      seen = state.value) : Paid (labels ++ [label]) next := by
  cases step with
  | call input => exact paid.call input
  | @load index seen call current place known =>
      have before := paid.paid index call current
      rw [place] at before
      simp only [Pc.Paid] at before
      refine paid.move current rfl rfl (fun _ _ same => same) ?_
      unfold Call.decide
      cases round call.input seen with
      | leave answer =>
          simp only [Pc.Paid]
          omega
      | exchange new answer =>
          simp only [Pc.Paid]
          exact ⟨by omega, fun other =>
            absurd (present index seen rfl) other⟩
  | @succeed index call new answer current place =>
      have before := paid.paid index call current
      rw [place] at before
      simp only [Pc.Paid] at before
      refine paid.move current rfl rfl ?_ ?_
      · intro pc steps other
        rw [List.length_append, List.length_singleton]
        exact other.exchanged new
      · simp only [Pc.Paid, List.length_append, List.length_singleton]
        omega
  | @retry index call expected new answer current place different =>
      have before := paid.paid index call current
      rw [place] at before
      simp only [Pc.Paid] at before
      refine paid.move current rfl rfl (fun _ _ same => same) ?_
      exact before.2 (Ne.symm different)

end Paid

variable [DecidableEq α]

/-- The loads see the present value. -/
def present (state : State ι α β) : Label ι α → Bool
  | .load _ seen => seen == state.value
  | _ => true

theorem taken_le_of_run {round : ι → α → Round α β}
    {labels : List (Label ι α)} {initial : α} {final : State ι α β}
    (ended : run (restrict present (State.step round)) labels
      (State.start initial) = some final) (index : Nat) :
    taken index labels ≤ 2 * final.exchanges.length + 1 := by
  have closed : ∀ (past : List (Label ι α)) (state : State ι α β)
      (label : Label ι α) (next : State ι α β),
      restrict present (State.step round) state label = some next →
      Paid past state → Paid (past ++ [label]) next := by
    intro past state label next moved paid
    obtain ⟨sees, stepped⟩ := step_of_restrict moved
    refine paid.step (step_of_step? round stepped) ?_
    rintro index seen rfl
    exact eq_of_beq sees
  exact (run_taken closed ended (Paid.start initial)).le index

theorem exists_step {round : ι → α → Round α β} {state : State ι α β}
    (sound : Sound round state) {index : Nat} {call : Call ι α β}
    (current : state.calls[index]? = some call)
    (running : ∀ answer, call.pc ≠ .returned answer) :
    ∃ label next, label.caller? = some index ∧
      restrict present (State.step round) state label = some next := by
  cases place : call.pc with
  | load =>
      have stepped := step?_of_step round
        (.load current place sound.value_mem)
      exact ⟨.load index state.value, _, rfl,
        (if_pos (beq_self_eq_true state.value)).trans stepped⟩
  | exchange expected new answer =>
      by_cases same : state.value = expected
      · subst same
        exact ⟨.exchange index, _, rfl,
          step?_of_step round (.succeed current place)⟩
      · exact ⟨.exchange index, _, rfl,
          step?_of_step round (.retry current place same)⟩
  | returned answer => exact absurd place (running answer)

end Progress

section Alone

variable {round : ι → α → Round α β}

def State.settle (round : ι → α → Round α β) (state : State ι α β)
    (input : ι) : State ι α β :=
  match round input state.value with
  | .leave answer =>
      { state with calls := state.calls ++ [⟨input, .returned answer⟩] }
  | .exchange new answer =>
      { state with
        value := new
        calls := state.calls ++ [⟨input, .returned answer⟩]
        exchanges := state.exchanges ++ [(state.calls.length, new)] }

theorem State.settle_leave {state : State ι α β} {input : ι} {answer : β}
    (decided : round input state.value = .leave answer) :
    state.settle round input =
      { state with calls := state.calls ++ [⟨input, .returned answer⟩] } := by
  rw [settle, decided]

theorem State.settle_exchange {state : State ι α β} {input : ι} {new : α}
    {answer : β} (decided : round input state.value = .exchange new answer) :
    state.settle round input =
      { state with
        value := new
        calls := state.calls ++ [⟨input, .returned answer⟩]
        exchanges := state.exchanges ++ [(state.calls.length, new)] } := by
  rw [settle, decided]

theorem reachable_settle [DecidableEq α] {state : State ι α β}
    (sound : Sound round state) (input : ι) :
    Reachable (State.step round) state (state.settle round input) := by
  have present := sound.value_mem
  cases decided : round input state.value with
  | leave answer =>
      refine ⟨[.call input, .load state.calls.length state.value], ?_⟩
      simp [run, State.step, State.settle, Call.decide, decided, present]
  | exchange new answer =>
      refine ⟨[.call input, .load state.calls.length state.value,
        .exchange state.calls.length], ?_⟩
      simp [run, State.step, State.settle, Call.decide, decided, present]

end Alone

end HoprUtilities.Lib.RetryLoop
