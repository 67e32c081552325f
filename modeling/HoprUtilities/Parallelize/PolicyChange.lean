import HoprUtilities.Parallelize.Admission

/-!
# Policy changes and parked admitters

`apply` stores the new settings and then notifies every listener, and an
admitter registers its listener before it looks at `ARBITRATION_ENABLED`
again.  The percentages it loads before it registers.  A change that falls
between the two is missed, and this module proves that nothing else is: an
admitter that registers with percentages that are still current is not left
behind by any later change.  That it is refused when it parks follows from its
second `try_reserve_decode`, unless a counter that this has loaded is released
before the admitter parks.
-/

namespace HoprUtilities.Parallelize

open HoprUtilities.Lib

variable {α π : Type}

/-- `apply` has stored some of its settings and not yet notified. -/
def ConfigPc.pending : ConfigPc → Bool
  | .storeReserve | .storeEnabled | .notify => true
  | _ => false

def State.changing (state : State α π) : Bool :=
  state.configs.any (·.pc.pending)

/-- The percentages are the ones of the settings. -/
def Gate.isCurrent (gate : Gate) (settings : Settings) : Bool :=
  gate.occupancyPct == settings.occupancyPct &&
    gate.reservePct == settings.encodeReservePct

/-- The same admission under the given settings. -/
def Gate.under (gate : Gate) (settings : Settings) : Gate :=
  { gate with
    occupancyPct := settings.occupancyPct
    reservePct := settings.encodeReservePct }

theorem Gate.under_of_isCurrent {gate : Gate} {settings : Settings}
    (current : gate.isCurrent settings = true) :
    gate.under settings = gate := by
  simp only [isCurrent, Bool.and_eq_true, beq_iff_eq] at current
  simp [under, ← current.1, ← current.2]

/-- The counter is one that the second `try_reserve_decode` of the call has
loaded, and the call has not been notified since it registered. -/
def Call.hasLoaded (call : Call α π) (counter : Counter) : Bool :=
  !call.isNotified &&
    match call.pc with
    | .admission (.retryReserve _ (.loadRunning _)) =>
        counter == .decodeOutstanding
    | .admission (.retryReserve _ (.loadEnc _ _)) =>
        counter == .decodeOutstanding || counter == .running
    | .admission (.await _) => counter != .outstanding
    | _ => false

/-- The counter that the next step of the call lowers, and `ENCODE_OUTSTANDING`
also if that step raises it: another encode task can let a decode task
through. -/
def Call.disturbed (call : Call α π) : Option Counter :=
  match call.pc with
  | .encodeEnter => some .encodeOutstanding
  | .dropTag _ => call.kind.tag
  | _ => none

/-- The counter that the next step of the task lowers. -/
def TaskPc.disturbed : TaskPc α π → Option Counter
  | .leaveRunning => some .running
  | _ => none

def State.disturbs (state : State α π) : Label α π → Option Counter
  | .call index _ _ => (state.calls[index]?).bind Call.disturbed
  | .task index _ =>
      (state.calls[index]?).bind fun call =>
        call.task.bind fun task => task.pc.disturbed
  | _ => none

/-- The step does not register an admitter with percentages that were
replaced and announced since it loaded them. -/
def State.registersCurrent (state : State α π) (label : Label α π) : Bool :=
  match label.thread?.bind (state.calls[·]?) with
  | none => true
  | some call =>
      match call.pc with
      | .admission (.listen gate) =>
          gate.isCurrent state.statics.settings || state.changing
      | _ => true

/-- The step does not release a counter between the moment at which an admitter
loads it for the second time and the moment at which that admitter parks. -/
def State.keepsLoaded (state : State α π) (label : Label α π) : Bool :=
  (state.disturbs label).all fun counter =>
    state.calls.all (!·.hasLoaded counter)

/-- The number of threads is a `usize`. -/
def Label.isSized : Label α π → Bool
  | .initThreadPool numThreads => numThreads ≤ usizeMax
  | _ => true

def State.calm (state : State α π) (label : Label α π) : Bool :=
  state.registersCurrent label && state.keepsLoaded label && label.isSized

def AdmitPc.gate? : AdmitPc → Option Gate
  | .recheckEnabled gate | .retryReserve gate _ | .await gate
  | .parked gate _ => some gate
  | _ => none

/-- The admitter has seen `ARBITRATION_ENABLED` after registering. -/
def AdmitPc.rechecked : AdmitPc → Bool
  | .retryReserve _ _ | .await _ | .parked _ _ => true
  | _ => false

/-- An admitter without a notification acts on the current settings. -/
def Informed (settings : Settings) (call : Call α π) : Prop :=
  call.isWaiting = true → ∀ pc, call.pc = .admission pc →
    (∀ gate, pc.gate? = some gate → gate.isCurrent settings = true) ∧
    (pc.rechecked = true → settings.enabled = true)

/-- A parked admitter was refused by the counters of that moment. -/
def Refuses (call : Call α π) : Prop :=
  ∀ gate seen, call.pc = .admission (.parked gate seen) →
    gate.admits seen = false

/-- The second `try_reserve_decode` has loaded no more than the counters say
by now, and one that has refused the call would do so again. -/
structure Call.Rechecks (counters : Counters) (call : Call α π) : Prop where
  loadedDec : ∀ {gate dec},
    call.pc = .admission (.retryReserve gate (.loadRunning dec)) →
    dec ≤ counters .decodeOutstanding
  loadedRunning : ∀ {gate dec running},
    call.pc = .admission (.retryReserve gate (.loadEnc dec running)) →
    dec ≤ counters .decodeOutstanding ∧ running ≤ counters .running
  refused : ∀ {gate}, call.pc = .admission (.await gate) →
    gate.admits counters = false

def AdmitPc.poolThreads? : AdmitPc → Option Nat
  | .checkPassthrough poolThreads | .checkEnabled poolThreads
  | .loadOccupancy poolThreads | .loadReserve poolThreads _ =>
      some poolThreads
  | .tryReserve gate _ | .listen gate | .recheckEnabled gate
  | .retryReserve gate _ | .await gate | .parked gate _ =>
      some gate.poolThreads
  | .loadPoolThreads | .passThrough | .leave => none

def Call.Sized (call : Call α π) : Prop :=
  ∀ pc poolThreads, call.pc = .admission pc →
    pc.poolThreads? = some poolThreads → poolThreads ≤ usizeMax

/-- Apart from the given one, the counters that the admission decision reads do
not fall, and `ENCODE_OUTSTANDING` stays. -/
def Keeps (disturbed : Option Counter) (before after : Counters) : Prop :=
  ∀ counter, counter ≠ .outstanding → disturbed ≠ some counter →
    before counter ≤ after counter ∧
      (counter = .encodeOutstanding → after counter = before counter)

namespace Keeps

variable {disturbed : Option Counter} {counters : Counters}

theorem refl : Keeps disturbed counters counters :=
  fun _ _ _ => ⟨Nat.le_refl _, fun _ => rfl⟩

theorem fetchAdd {counter : Counter}
    (told : counter = .encodeOutstanding →
      disturbed = some .encodeOutstanding) :
    Keeps disturbed counters (counters.fetchAdd counter) := by
  intro other _ apart
  unfold Counters.fetchAdd
  split_ifs with same
  · subst same
    refine ⟨Nat.le_succ _, fun encode => ?_⟩
    rw [told encode, encode] at apart
    exact absurd rfl apart
  · exact ⟨Nat.le_refl _, fun _ => rfl⟩

theorem fetchSub {counter : Counter}
    (told : counter = .outstanding ∨ disturbed = some counter) :
    Keeps disturbed counters (counters.fetchSub counter) := by
  intro other decisive apart
  unfold Counters.fetchSub
  by_cases same : other = counter
  · subst same
    rcases told with uncounted | told
    · exact absurd uncounted decisive
    · exact absurd told apart
  · rw [if_neg same]
    exact ⟨Nat.le_refl _, fun _ => rfl⟩

theorem tryMove (move : TryMove) :
    Keeps disturbed counters (move.counters counters) := by
  unfold TryMove.counters
  split
  · exact fetchAdd nofun
  · exact refl

end Keeps

theorem admitStep_keeps {statics : Statics} {weak : Bool}
    {call next : Call α π} {pc : AdmitPc} {counters : Counters}
    {signal : Signal} (disturbed : Option Counter)
    (taken : admitStep statics weak call pc = some (counters, next, signal)) :
    Keeps disturbed statics.counters counters := by
  cases pc with
  | tryReserve gate pc | retryReserve gate pc =>
      cases taken
      exact .tryMove _
  | passThrough =>
      cases taken
      exact .fetchAdd nofun
  | await gate | parked gate seen =>
      simp only [admitStep] at taken
      split_ifs at taken <;> cases taken <;> exact .refl
  | loadPoolThreads | checkPassthrough | checkEnabled | loadOccupancy
  | loadReserve | listen | recheckEnabled | leave =>
      cases taken
      exact .refl

theorem callStep_keeps {statics : Statics} {weak : Bool}
    {call next : Call α π} {counters : Counters} {signal : Signal}
    (taken : callStep statics weak call = some (counters, next, signal)) :
    Keeps call.disturbed statics.counters counters := by
  unfold Call.disturbed
  cases place : call.pc with
  | encodeEnter =>
      simp only [callStep, place] at taken
      cases taken
      exact .fetchAdd (fun _ => rfl)
  | admission pc =>
      simp only [callStep, place] at taken
      exact admitStep_keeps _ taken
  | acquireSlot =>
      simp only [callStep, place] at taken
      cases taken
      exact .fetchAdd nofun
  | rejectSlot current limit =>
      simp only [callStep, place] at taken
      cases taken
      exact .fetchSub (.inl rfl)
  | submit | notifyTag finish =>
      simp only [callStep, place] at taken
      cases taken
      exact .refl
  | await =>
      simp only [callStep, place] at taken
      cases submitted : call.task with
      | none => simp [submitted] at taken
      | some task =>
          cases sent : task.data with
          | none =>
              simp only [submitted, sent] at taken
              split_ifs at taken
              cases taken
              exact .refl
          | some result =>
              cases result <;> simp only [submitted, sent] at taken <;>
                cases taken <;> exact .refl
  | dropTag finish =>
      simp only [callStep, place] at taken
      cases tagged : call.kind.tag with
      | none => simp [tagged] at taken
      | some counter =>
          simp only [tagged] at taken
          cases taken
          exact .fetchSub (.inr rfl)
  | finished finish => simp [callStep, place] at taken

/-- What a step of the machine does to the counters is told by `disturbs`. -/
theorem State.keeps_of_step {state next : State α π} {label : Label α π}
    (taken : state.step label = some next) :
    Keeps (state.disturbs label) state.statics.counters
      next.statics.counters := by
  cases label with
  | spawn | configure | initThreadPool =>
      cases taken
      exact .refl
  | config index =>
      simp only [State.step, Option.bind_eq_bind, Option.bind_eq_some_iff]
        at taken
      obtain ⟨_, _, _, _, _, _, ended⟩ := taken
      cases ended
      exact .refl
  | cancel index target =>
      simp only [State.step, Option.bind_eq_bind, Option.bind_eq_some_iff]
        at taken
      obtain ⟨_, _, _, _, updated⟩ := taken
      obtain ⟨_, _, rfl⟩ := Option.map_eq_some_iff.mp updated
      exact .refl
  | task index target =>
      simp only [State.step, Option.bind_eq_bind, Option.bind_eq_some_iff]
        at taken
      obtain ⟨call, current, task, submitted, ⟨counters, _, _⟩, stepped,
        updated⟩ := taken
      obtain ⟨_, _, rfl⟩ := Option.map_eq_some_iff.mp updated
      have told : state.disturbs (.task index target) =
          task.pc.disturbed := by
        simp only [State.disturbs, current, submitted, Option.bind_some]
      rw [told]
      cases taskStep_iff.mp stepped with
      | enterRunning => exact .fetchAdd (by simp)
      | leaveRunning place =>
          rw [place]
          exact .fetchSub (.inr rfl)
      | releaseSlot => exact .fetchSub (.inl rfl)
      | skip | start | execute | orphan | complete | notifyRunning =>
          exact .refl
  | call index weak target =>
      simp only [State.step, Option.bind_eq_bind, Option.bind_eq_some_iff]
        at taken
      obtain ⟨call, current, ⟨counters, _, _⟩, stepped, updated⟩ := taken
      obtain ⟨_, _, rfl⟩ := Option.map_eq_some_iff.mp updated
      have told : state.disturbs (.call index weak target) =
          call.disturbed := by
        simp only [State.disturbs, current, Option.bind_some]
      rw [told]
      exact callStep_keeps stepped

theorem Call.not_hasLoaded_outstanding {call : Call α π} :
    ¬call.hasLoaded .outstanding = true := by
  unfold hasLoaded
  split <;> simp

theorem State.undisturbed {state : State α π} {label : Label α π}
    (calm : state.keepsLoaded label = true) {call : Call α π}
    (member : call ∈ state.calls) {counter : Counter}
    (loaded : call.hasLoaded counter = true) :
    state.disturbs label ≠ some counter := by
  intro disturbed
  simp only [State.keepsLoaded, disturbed, Option.all_some,
    List.all_eq_true] at calm
  simpa [loaded] using calm call member

/-- A refusal stands while decode tasks and running tasks come and none go. -/
theorem Gate.admits_mono {gate : Gate} (sized : gate.poolThreads ≤ usizeMax)
    {before after : Counters}
    (dec : before .decodeOutstanding ≤ after .decodeOutstanding)
    (running : before .running ≤ after .running)
    (enc : after .encodeOutstanding = before .encodeOutstanding)
    (refused : gate.admits before = false) : gate.admits after = false := by
  rw [Gate.admits_eq_false_iff _ sized] at refused ⊢
  rcases refused with top | refused
  · exact .inl (Nat.le_trans top dec)
  · obtain ⟨saturated, protects, flooding, full⟩ := refused
    rw [← enc] at protects flooding full
    exact .inr ⟨Nat.le_trans saturated running, protects,
      Nat.lt_of_lt_of_le flooding dec, Nat.le_trans full dec⟩

/-- What was loaded one after the other refuses the counters of now. -/
theorem TryStep.refuses {gate : Gate} {counters : Counters}
    {dec running : Nat} (sized : gate.poolThreads ≤ usizeMax)
    (step : TryStep gate counters (.loadEnc dec running) (.returned false))
    (loadedDec : dec ≤ counters .decodeOutstanding)
    (loadedRunning : running ≤ counters .running) :
    gate.admits counters = false := by
  cases step with
  | refuse full =>
      let loaded : Counters := fun counter =>
        match counter with
        | .decodeOutstanding => dec
        | .running => running
        | other => counters other
      have refused : gate.admits loaded = false := by
        simpa [Gate.admits, loaded] using full
      exact Gate.admits_mono sized
        (show loaded .decodeOutstanding ≤ _ from loadedDec)
        (show loaded .running ≤ _ from loadedRunning) rfl refused

namespace Call.Rechecks

variable {counters after : Counters} {call : Call α π}

theorem mono (sized : call.Sized)
    (kept : ∀ counter, call.hasLoaded counter = true →
      counters counter ≤ after counter ∧
        (counter = .encodeOutstanding → after counter = counters counter))
    (unnotified : call.isNotified = false)
    (rechecks : call.Rechecks counters) : call.Rechecks after := by
  constructor
  · intro gate dec place
    have still := kept .decodeOutstanding
      (by simp [hasLoaded, unnotified, place])
    exact Nat.le_trans (rechecks.loadedDec place) still.1
  · intro gate dec running place
    have stillDec := kept .decodeOutstanding
      (by simp [hasLoaded, unnotified, place])
    have stillRunning := kept .running
      (by simp [hasLoaded, unnotified, place])
    obtain ⟨first, second⟩ := rechecks.loadedRunning place
    exact ⟨Nat.le_trans first stillDec.1, Nat.le_trans second stillRunning.1⟩
  · intro gate place
    have loaded : ∀ counter, counter ≠ .outstanding →
        call.hasLoaded counter = true := by
      intro counter decisive
      simp [hasLoaded, unnotified, place, decisive]
    have stillDec := kept .decodeOutstanding (loaded _ nofun)
    have stillRunning := kept .running (loaded _ nofun)
    have stillEnc := kept .encodeOutstanding (loaded _ nofun)
    exact Gate.admits_mono (sized _ _ place rfl) stillDec.1 stillRunning.1
      (stillEnc.2 rfl) (rechecks.refused place)

/-- A call that is at no place of its second `try_reserve_decode`. -/
theorem of_elsewhere
    (retries : ∀ gate pc, call.pc ≠ .admission (.retryReserve gate pc))
    (awaits : ∀ gate, call.pc ≠ .admission (.await gate)) :
    call.Rechecks counters :=
  ⟨fun place => (retries _ _ place).elim, fun place =>
    (retries _ _ place).elim, fun place => (awaits _ place).elim⟩

end Call.Rechecks

theorem AdmitMove.gate? {statics : Statics} {pc after : AdmitPc}
    (move : AdmitMove statics pc after) {gate : Gate}
    (present : after.gate? = some gate) : pc.gate? = some gate := by
  cases move <;> first | exact present | cases present

theorem AdmitMove.rechecked {statics : Statics} {pc after : AdmitPc}
    (move : AdmitMove statics pc after) (seen : after.rechecked = true) :
    pc.rechecked = true ∨ statics.settings.enabled = true := by
  cases move with
  | stillEnabled enabled => exact .inr enabled
  | retryNext | retryRefused => exact .inl rfl
  | _ => cases seen

/-- The call that moves does not register with percentages of the past. -/
def Call.RegistersCurrent (state : State α π) (call : Call α π) : Prop :=
  ∀ gate, call.pc = .admission (.listen gate) →
    gate.isCurrent state.statics.settings = true ∨ state.changing = true

theorem State.registersCurrent_of_thread {state : State α π}
    {label : Label α π} {index : Nat} {call : Call α π}
    (registers : state.registersCurrent label = true)
    (moves : label.thread? = some index)
    (current : state.calls[index]? = some call) :
    call.RegistersCurrent state := by
  unfold State.registersCurrent at registers
  simp only [moves, Option.bind_some, current] at registers
  intro gate place
  simpa [place] using registers

namespace ThreadStep

variable {state : State α π} {call next : Call α π} {counters : Counters}
  {signal : Signal}

theorem informed
    (step : ThreadStep state.statics call counters next signal)
    (registers : call.RegistersCurrent state)
    (settled : state.changing = false)
    (informed : Informed state.statics.settings call) :
    Informed state.statics.settings next := by
  intro waiting pc place
  cases step with
  | @evaluate before _ here move =>
      cases place
      obtain ⟨current, enabled⟩ := informed waiting before here
      refine ⟨fun gate present => current gate (move.gate? present), ?_⟩
      intro seen
      rcases move.rechecked seen with already | now
      · exact enabled already
      · exact now
  | listen here =>
      cases place
      refine ⟨?_, by simp [AdmitPc.rechecked]⟩
      intro gate present
      cases present
      rcases registers _ here with current | changing
      · exact current
      · rw [settled] at changing
        cases changing
  | park here unnotified =>
      cases place
      obtain ⟨current, enabled⟩ := informed waiting _ here
      exact ⟨current, enabled⟩
  | reserve =>
      cases place
      exact ⟨by simp [AdmitPc.gate?], by simp [AdmitPc.rechecked]⟩
  | wake => cases waiting
  | task submitted step => exact informed waiting pc place
  | encodeEnter | leave | accept | reject | submit | dropTag | notifyTag
  | cancelParked => cases place
  | returnSlot | channelClosed | receive | cancelAwait =>
      exact (Call.close_ne_admission _ _ _ place).elim

theorem refuses
    (step : ThreadStep state.statics call counters next signal)
    (rechecks : call.isNotified = false →
      call.Rechecks state.statics.counters)
    (refuses : Refuses call) : Refuses next := by
  intro gate seen place
  cases step with
  | evaluate here move =>
      cases place
      cases move
  | park here unnotified =>
      cases place
      exact (rechecks unnotified).refused here
  | task submitted step => exact refuses gate seen place
  | encodeEnter | leave | accept | reject | submit | dropTag | notifyTag
  | cancelParked | listen | reserve | wake => cases place
  | returnSlot | channelClosed | receive | cancelAwait =>
      exact (Call.close_ne_admission _ _ _ place).elim

theorem sized (step : ThreadStep state.statics call counters next signal)
    (threads : state.statics.poolThreadCount ≤ usizeMax)
    (sized : call.Sized) : next.Sized := by
  intro pc poolThreads place works
  cases step with
  | @evaluate before _ here move =>
      cases place
      cases move with
      | loadPoolThreads =>
          cases works
          exact threads
      | startsPassthrough | disabled | stillDisabled => cases works
      | starts | enabled | loadOccupancy | loadReserve | tryNext | tryRefused
      | stillEnabled | retryNext | retryRefused =>
          exact sized _ _ here works
  | listen here | park here =>
      cases place
      exact sized _ _ here works
  | wake here =>
      cases place
      cases works
      rcases here with awaits | ⟨seen, parked⟩
      · exact sized _ _ awaits rfl
      · exact sized _ _ parked rfl
  | reserve =>
      cases place
      cases works
  | task submitted step => exact sized pc poolThreads place works
  | encodeEnter | leave | accept | reject | submit | dropTag | notifyTag
  | cancelParked => cases place
  | returnSlot | channelClosed | receive | cancelAwait =>
      exact (Call.close_ne_admission _ _ _ place).elim

theorem rechecks
    (step : ThreadStep state.statics call counters next signal)
    (sized : call.Sized)
    (kept : ∀ counter, call.hasLoaded counter = true →
      state.statics.counters counter ≤ counters counter ∧
        (counter = .encodeOutstanding →
          counters counter = state.statics.counters counter))
    (rechecks : call.isNotified = false →
      call.Rechecks state.statics.counters)
    (unnotified : next.isNotified = false) : next.Rechecks counters := by
  cases step with
  | @evaluate before after here move =>
      have before := rechecks unnotified
      cases move with
      | retryNext step =>
          cases step with
          | loadDec =>
              refine ⟨fun place => ?_, nofun, nofun⟩
              cases place
              exact Nat.le_refl _
          | loadRunning dec =>
              refine ⟨nofun, fun place => ?_, nofun⟩
              cases place
              exact ⟨before.loadedDec here, Nat.le_refl _⟩
          | pass => exact ⟨nofun, nofun, nofun⟩
          | retry => exact ⟨nofun, nofun, nofun⟩
      | retryRefused step =>
          refine ⟨nofun, nofun, fun place => ?_⟩
          cases place
          cases step with
          | refuse full =>
              obtain ⟨loadedDec, loadedRunning⟩ := before.loadedRunning here
              exact TryStep.refuses (sized _ _ here rfl) (.refuse full)
                loadedDec loadedRunning
      | stillEnabled => exact ⟨nofun, nofun, nofun⟩
      | _ => exact .of_elsewhere nofun nofun
  | task submitted step =>
      have before := (rechecks unnotified).mono sized kept unnotified
      exact ⟨before.loadedDec, before.loadedRunning, before.refused⟩
  | encodeEnter | reserve | listen | park | wake | leave | accept | reject
  | submit | dropTag | notifyTag | cancelParked =>
      exact .of_elsewhere nofun nofun
  | returnSlot | channelClosed | receive | cancelAwait =>
      exact .of_elsewhere (fun _ _ => Call.close_ne_admission _ _ _)
        (fun _ => Call.close_ne_admission _ _ _)

end ThreadStep

theorem Marks.sized {old new : Call α π} (marks : Marks old new)
    (sized : old.Sized) : new.Sized := by
  rw [marks.parts]
  exact sized

theorem Marks.rechecks {old new : Call α π} {counters : Counters}
    (marks : Marks old new)
    (rechecks : old.isNotified = false → old.Rechecks counters)
    (unnotified : new.isNotified = false) : new.Rechecks counters := by
  rcases marks with rfl | ⟨additional, rfl⟩
  · exact rechecks unnotified
  · rcases old.mark_cases additional with same | ⟨_, same⟩
    · rw [same] at unnotified ⊢
      exact rechecks unnotified
    · rw [same] at unnotified
      cases unnotified

theorem Marks.informed {settings : Settings} {old new : Call α π}
    (marks : Marks old new) (informed : Informed settings old) :
    Informed settings new := by
  rcases marks with rfl | ⟨additional, rfl⟩
  · exact informed
  · rcases old.mark_cases additional with same | ⟨_, same⟩
    · rw [same]
      exact informed
    · rw [same]
      intro waiting
      cases waiting

theorem Marks.refuses {old new : Call α π} (marks : Marks old new)
    (refuses : Refuses old) : Refuses new := by
  rw [marks.parts]
  exact refuses

/-- A step of a configuration call either leaves the settings an admitter
acts on alone, or its notification is still due, or it is just given. -/
theorem ConfigStep.cases_pending {settings after : Settings}
    {call next : ConfigCall} {signal : Signal}
    (step : ConfigStep settings call after next signal) :
    (call.pc.pending = false ∧
      ∀ {α π : Type} (thread : Call α π), Informed settings thread →
        Informed after thread) ∨
      next.pc.pending = true ∨ signal = .notifyAll := by
  cases step with
  | refused place configured | claim place unconfigured
  | storeConfigured place => exact .inl ⟨by rw [place]; rfl, fun _ held => held⟩
  | storeDisabled | storeOccupancy | storeReserve | storeEnabled =>
      exact .inr (.inl rfl)
  | notify => exact .inr (.inr rfl)

theorem ConfigCall.pending_start (once : Bool) (config : ArbitrationConfig) :
    (ConfigCall.start once config).pc.pending = false := by
  cases once <;> cases config <;> rfl

structure UpToDate (state : State α π) : Prop where
  informed : state.changing = false → ∀ call ∈ state.calls,
    Informed state.statics.settings call
  threads : state.statics.poolThreadCount ≤ usizeMax
  sized : ∀ call ∈ state.calls, call.Sized
  rechecks : ∀ call ∈ state.calls, call.isNotified = false →
    call.Rechecks state.statics.counters
  refuses : ∀ call ∈ state.calls, Refuses call

namespace UpToDate

variable {state next : State α π} {label : Label α π}

theorem initial (parsed : Option Nat) :
    UpToDate (State.initial parsed : State α π) := by
  refine ⟨fun _ call member => ?_, Nat.zero_le _, fun call member => ?_,
    fun call member => ?_, fun call member => ?_⟩ <;> cases member

theorem changing_set {index : Nat} {config after : ConfigCall}
    (current : state.configs[index]? = some config)
    (idle : config.pc.pending = false)
    (settled : (state.configs.set index after).any (·.pc.pending) = false) :
    state.changing = false := by
  unfold State.changing
  rw [List.any_eq_false] at settled ⊢
  intro other member
  by_cases same : other = config
  · rw [same, idle]
    exact Bool.false_ne_true
  · exact settled other (mem_set_of_ne member current same)

theorem spawn (upToDate : UpToDate state) (kind : Kind) (f : Except π α) :
    UpToDate { state with calls := state.calls ++ [Call.start kind f] } := by
  refine ⟨fun settled => forall_concat (upToDate.informed settled) ?_,
    upToDate.threads, forall_concat upToDate.sized ?_,
    forall_concat upToDate.rechecks ?_, forall_concat upToDate.refuses ?_⟩
  · intro waiting
    cases waiting
  · intro pc poolThreads place works
    cases kind <;> cases place
    cases works
  · intro _
    refine .of_elsewhere ?_ ?_ <;> cases kind <;> exact nofun
  · intro gate seen place
    cases kind <;> cases place

/-- A call moves.  What the others have loaded is not disturbed. -/
theorem thread (upToDate : UpToDate state) {index target : Nat}
    {call moved : Call α π} {counters : Counters} {signal : Signal}
    {calls : List (Call α π)} (current : state.calls[index]? = some call)
    (registers : call.RegistersCurrent state)
    (kept : ∀ other ∈ state.calls, ∀ counter, other.hasLoaded counter = true →
      state.statics.counters counter ≤ counters counter ∧
        (counter = .encodeOutstanding →
          counters counter = state.statics.counters counter))
    (step : ThreadStep state.statics call counters moved signal)
    (delivered :
      deliver signal target (state.calls.set index moved) = some calls) :
    UpToDate
      { state with
        statics := { state.statics with counters := counters }
        calls := calls } := by
  have member := List.mem_of_getElem? current
  have marked := deliver_marks delivered
  constructor
  · intro settled
    have before := upToDate.informed settled
    exact forall_of_forall₂ marked (fun _ _ marks => marks.informed)
      (forall_set before
        (step.informed registers settled (before _ member)))
  · exact upToDate.threads
  · exact forall_of_forall₂ marked (fun _ _ marks => marks.sized)
      (forall_set upToDate.sized
        (step.sized upToDate.threads (upToDate.sized _ member)))
  · refine forall_of_forall₂ marked (fun _ _ marks => marks.rechecks)
      (forall_set ?_ (step.rechecks (upToDate.sized _ member)
        (kept _ member) (upToDate.rechecks _ member)))
    intro other present unnotified
    exact (upToDate.rechecks other present unnotified).mono
      (upToDate.sized other present) (kept other present) unnotified
  · exact forall_of_forall₂ marked (fun _ _ marks => marks.refuses)
      (forall_set upToDate.refuses
        (step.refuses (upToDate.rechecks _ member)
          (upToDate.refuses _ member)))

theorem config (upToDate : UpToDate state) {index : Nat}
    {config moved : ConfigCall} {settings : Settings} {signal : Signal}
    {calls : List (Call α π)} (current : state.configs[index]? = some config)
    (step : ConfigStep state.statics.settings config settings moved signal)
    (delivered : deliver signal 0 state.calls = some calls) :
    UpToDate
      { statics := { state.statics with settings := settings }
        calls := calls
        configs := state.configs.set index moved } := by
  have marked := deliver_marks delivered
  refine ⟨fun settled => ?_, upToDate.threads,
    forall_of_forall₂ marked (fun _ _ marks => marks.sized) upToDate.sized,
    forall_of_forall₂ marked (fun _ _ marks => marks.rechecks)
      upToDate.rechecks,
    forall_of_forall₂ marked (fun _ _ marks => marks.refuses)
      upToDate.refuses⟩
  rcases step.cases_pending with ⟨idle, kept⟩ | pending | rfl
  · have before := upToDate.informed (changing_set current idle settled)
    exact forall_of_forall₂ marked (fun _ _ marks => marks.informed)
      (fun call member => kept call (before call member))
  · have due := List.any_eq_false.mp settled _ (mem_set_self current)
    exact (due pending).elim
  · intro call member waiting
    rw [deliver_notifyAll delivered call member] at waiting
    cases waiting

theorem step (upToDate : UpToDate state)
    (taken : restrict State.calm State.step state label = some next) :
    UpToDate next := by
  obtain ⟨calm, stepped⟩ := step_of_restrict taken
  simp only [State.calm, Bool.and_eq_true] at calm
  obtain ⟨⟨registers, keepsLoaded⟩, isSized⟩ := calm
  have keeps := State.keeps_of_step stepped
  cases stateStep_of_step stepped with
  | spawn kind f => exact upToDate.spawn kind f
  | thread moves current step delivered =>
      refine upToDate.thread current
        (State.registersCurrent_of_thread registers moves current) ?_ step
        delivered
      intro other member counter loaded
      refine keeps counter ?_
        (State.undisturbed keepsLoaded member loaded)
      rintro rfl
      exact Call.not_hasLoaded_outstanding loaded
  | configure once config =>
      refine ⟨fun settled => upToDate.informed ?_, upToDate.threads,
        upToDate.sized, upToDate.rechecks, upToDate.refuses⟩
      simpa [State.changing, ConfigCall.pending_start] using settled
  | config current step delivered =>
      exact upToDate.config current step delivered
  | initThreadPool numThreads =>
      exact ⟨upToDate.informed, of_decide_eq_true isSized, upToDate.sized,
        upToDate.rechecks, upToDate.refuses⟩

end UpToDate

/-- In every calm run, once the configuration calls have notified, arbitration
is enabled for an admitter that is parked without a notification, and the
settings that are now in force refuse it by the counters of the moment at which
it parked. -/
theorem policy_reaches_parked (parsed : Option Nat) (state : State α π)
    (reachable : Reachable (restrict State.calm State.step)
      (State.initial parsed) state)
    (finished : ∀ config ∈ state.configs, config.pc.pending = false)
    (waiter : Call α π) (member : waiter ∈ state.calls)
    (gate : Gate) (seen : Counters)
    (parked : waiter.pc = .admission (.parked gate seen))
    (unnotified : waiter.isNotified = false) :
    state.statics.settings.enabled = true ∧
      (gate.under state.statics.settings).admits seen = false := by
  have closed : ∀ (state : State α π) label next,
      restrict State.calm State.step state label = some next →
      Accounted (parsed.filter (0 < ·)) state ∧ UpToDate state →
      Accounted (parsed.filter (0 < ·)) next ∧ UpToDate next := by
    intro state label next taken premise
    obtain ⟨accounted, upToDate⟩ := premise
    have stepped := (step_of_restrict taken).2
    exact ⟨accounted.step (stateStep_of_step stepped), upToDate.step taken⟩
  obtain ⟨accounted, upToDate⟩ :=
    reachable.invariant closed ⟨.initial parsed, .initial parsed⟩
  have settled : state.changing = false := by
    unfold State.changing
    rw [List.any_eq_false]
    intro config present
    simp [finished config present]
  have waiting := Call.isWaiting_of_listening
    ((accounted.shapes waiter member).listening _ parked rfl) unnotified
  obtain ⟨current, enabled⟩ :=
    upToDate.informed settled waiter member waiting _ parked
  refine ⟨enabled rfl, ?_⟩
  rw [Gate.under_of_isCurrent (current gate rfl)]
  exact upToDate.refuses waiter member gate seen parked

/-- The first call of `with_arbitration`, from its start to its end. -/
def configured (config : ArbitrationConfig) : List (Label Nat Unit) :=
  .configure false config :: List.replicate 5 (.config 0)

/-- A configuration call runs to its end, then the fourth decode task parks
under the new settings. -/
def calmChange : List (Label Nat Unit) :=
  configured (.enabled 75 50) ++ fourthDecode

theorem policy_reaches_parked_calmChange :
    ∃ (state : State Nat Unit) (gate : Gate) (seen : Counters),
      run (restrict State.calm State.step) calmChange (State.initial none) =
        some state ∧
      state.parksAt 4 = true ∧ state.statics.settings.enabled = true ∧
      (gate.under state.statics.settings).admits seen = false := by
  have passed : (run (restrict State.calm State.step) calmChange
      (State.initial none : State Nat Unit)).any (fun state =>
        state.parksAt 4 && state.configs.all (!·.pc.pending)) = true := by
    decide +kernel
  obtain ⟨state, ended, facts⟩ := exists_run _ passed
  simp only [Bool.and_eq_true, List.all_eq_true, Bool.not_eq_eq_eq_not,
    Bool.not_true] at facts
  obtain ⟨waiter, member, unnotified, gate, seen, parked⟩ :=
    State.parksAt_eq_true facts.1
  exact ⟨state, gate, seen, ended, facts.1, policy_reaches_parked none state
    ⟨calmChange, ended⟩ facts.2 waiter member gate seen parked unnotified⟩

/-- The fourth decode task is refused by the first `try_reserve_decode`.
Before it registers, a configuration call raises the occupancy threshold and
notifies.  The task then registers, is refused by the old percentages, and
parks. -/
def missedChange : List (Label Nat Unit) :=
  threeDecodes ++ polled 4 8 ++ configured (.enabled 100 50) ++ polled 4 6

/-- The call at `index` is parked without a notification, although the current
settings let it through, by the counters of the moment at which it parked and
by those of now. -/
def State.missesAt (state : State α π) (index : Nat) : Bool :=
  match state.calls[index]? with
  | some call =>
      !call.isNotified &&
        match call.pc with
        | .admission (.parked gate seen) =>
            (gate.under state.statics.settings).admits seen &&
              (gate.under state.statics.settings).admits state.statics.counters
        | _ => false
  | none => false

theorem policy_change_missed :
    ∃ state : State Nat Unit,
      run State.step missedChange (State.initial none) = some state ∧
      state.configs =
        [{ once := false
           config := .enabled 100 50
           pc := .finished true }] ∧
      state.statics.settings.occupancyPct = 100 ∧
      state.missesAt 4 = true := by
  have passed : (run State.step missedChange
      (State.initial none : State Nat Unit)).any (fun state =>
        state.configs ==
          [{ once := false
             config := .enabled 100 50
             pc := .finished true }] &&
        state.statics.settings.occupancyPct == 100 &&
        state.missesAt 4) = true := by
    decide +kernel
  obtain ⟨state, ended, facts⟩ := exists_run _ passed
  simp only [Bool.and_eq_true, beq_iff_eq] at facts
  exact ⟨state, ended, facts.1.1, facts.1.2, facts.2⟩

end HoprUtilities.Parallelize
