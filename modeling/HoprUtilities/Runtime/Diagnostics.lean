import HoprUtilities.Lib.Text
import HoprUtilities.Runtime.ShouldWarn

/-!
# The diagnostics of a polled future

`config` reads three environment variables; whatever they hold, a warning is
possible after the first poll at the earliest, and the pause between warnings
is positive.

`PollDiagnosticFuture::poll` counts the polls.  The future is polled through an
exclusive reference, so its calls of `should_warn` come one after the other.
-/

namespace HoprUtilities.Runtime

open HoprUtilities.Lib HoprUtilities.Lib.RetryLoop

abbrev Environment := String → Option String

structure DiagnosticsConfig where
  enabled : Bool
  warnAfter : UInt64
  warnEvery : Duration
  warnAfter_pos : 0 < warnAfter
  warnEvery_pos : 0 < warnEvery.asNanos

namespace Duration

/-- The part of the milliseconds below a second. -/
def millisNanos (millis : UInt64) : UInt32 :=
  (millis % 1000).toUInt32 * 1_000_000

theorem toNat_millisNanos (millis : UInt64) :
    (millisNanos millis).toNat = millis.toNat % 1000 * 1_000_000 := by
  simp only [millisNanos, UInt32.toNat_mul, UInt64.toNat_toUInt32,
    UInt64.toNat_mod, UInt64.reduceToNat, UInt32.reduceToNat]
  omega

def ofMillis (millis : UInt64) : Duration where
  secs := millis / 1000
  nanos := millisNanos millis
  nanos_lt := by
    simp only [UInt32.lt_iff_toNat_lt, toNat_millisNanos, UInt32.reduceToNat]
    omega

/-- The order of the derived `Ord`. -/
def lt (left right : Duration) : Bool :=
  left.secs < right.secs ||
    (left.secs == right.secs && left.nanos < right.nanos)

theorem asNanos_ofSecs (secs : UInt64) :
    (ofSecs secs).asNanos = secs.toNat * 1_000_000_000 := by
  simp [asNanos, ofSecs]

theorem asNanos_ofMillis (millis : UInt64) :
    (ofMillis millis).asNanos = millis.toNat * 1_000_000 := by
  simp only [asNanos, ofMillis, toNat_millisNanos, UInt64.toNat_div,
    UInt64.reduceToNat]
  omega

theorem lt_iff (left right : Duration) :
    left.lt right = true ↔ left.asNanos < right.asNanos := by
  have first : left.nanos.toNat < 1_000_000_000 := left.nanos_lt
  have second : right.nanos.toNat < 1_000_000_000 := right.nanos_lt
  simp only [lt, Bool.or_eq_true, Bool.and_eq_true, decide_eq_true_eq,
    beq_iff_eq, UInt64.lt_iff_toNat_lt, UInt32.lt_iff_toNat_lt,
    ← UInt64.toNat_inj, asNanos]
  omega

end Duration

def parseBool (value : String) : Bool :=
  ["1", "true", "yes", "on"].contains
    (String.ofList ((trim value.toList).map Char.toLower))

def parseDuration (value : String) : Option Duration :=
  let trimmed := trim value.toList
  match stripSuffix? trimmed ['m', 's'] with
  | some stripped =>
      (parseU64 (String.ofList (trim stripped))).map Duration.ofMillis
  | none =>
      match stripSuffix? trimmed ['s'] with
      | some stripped =>
          (parseU64 (String.ofList (trim stripped))).map Duration.ofSecs
      | none => (parseU64 (String.ofList trimmed)).map Duration.ofSecs

theorem getD_filter {κ : Type} (accepts : κ → Bool) {default : κ}
    (sane : accepts default = true) (value : Option κ) :
    accepts ((value.filter accepts).getD default) = true := by
  cases kept : value.filter accepts with
  | none => exact sane
  | some found => exact (Option.filter_eq_some_iff.mp kept).2

def defaultWarnAfter : UInt64 := 100_000

def defaultWarnEvery : Duration := .ofSecs 5

/-- `CONFIG.get_or_init`, in the environment of the process. -/
def config (environment : Environment) : DiagnosticsConfig where
  enabled := (environment "HOPR_RUNTIME_POLL_DIAGNOSTICS").any parseBool
  warnAfter :=
    (((environment "HOPR_RUNTIME_POLL_WARN_AFTER").bind fun value =>
      parseU64 (String.ofList (trim value.toList))).filter
        (decide <| 0 < ·)).getD defaultWarnAfter
  warnEvery :=
    (((environment "HOPR_RUNTIME_POLL_WARN_EVERY").bind parseDuration).filter
      Duration.zero.lt).getD defaultWarnEvery
  warnAfter_pos := by
    have sane : decide (0 < defaultWarnAfter) = true := by decide
    exact of_decide_eq_true (getD_filter (decide <| 0 < ·) sane _)
  warnEvery_pos := by
    have sane : Duration.zero.lt defaultWarnEvery = true := by decide
    have positive := (Duration.lt_iff _ _).mp
      (getD_filter Duration.zero.lt sane
        ((environment "HOPR_RUNTIME_POLL_WARN_EVERY").bind parseDuration))
    exact Nat.lt_of_le_of_lt (Nat.zero_le _) positive

/-- The units of a duration.  A number without a unit counts seconds. -/
inductive DurationUnit where
  | millis
  | secs
  | bare

namespace DurationUnit

def suffix : DurationUnit → List Char
  | millis => ['m', 's']
  | secs => ['s']
  | bare => []

def duration : DurationUnit → UInt64 → Duration
  | millis => Duration.ofMillis
  | secs | bare => Duration.ofSecs

def nanos : DurationUnit → Nat
  | millis => 1_000_000
  | secs | bare => 1_000_000_000

theorem asNanos_duration (unit : DurationUnit) (count : UInt64) :
    (unit.duration count).asNanos = count.toNat * unit.nanos := by
  cases unit with
  | millis => exact Duration.asNanos_ofMillis count
  | secs | bare => exact Duration.asNanos_ofSecs count

end DurationUnit

section Print

variable {before between after : List Char}

theorem not_mem_number (count : UInt64) (letter : Char)
    (blank : ∀ char ∈ between, isWhiteSpace char = true)
    (noDigit : letter.isDigit = false)
    (visible : isWhiteSpace letter = false) :
    letter ∉ (printU64 count).toList ++ between := by
  intro member
  rcases List.mem_append.mp member with digit | white
  · rw [isDigit_of_mem_printU64 digit] at noDigit
    cases noDigit
  · rw [blank letter white] at visible
    cases visible

theorem trimmed_digits (count : UInt64) : Trimmed (printU64 count).toList :=
  .of_all fun _ member => isWhiteSpace_of_isDigit
    (isDigit_of_mem_printU64 member)

theorem trimmed_number (count : UInt64) (more : List Char) {last : Char}
    (closing : isWhiteSpace last = false) :
    Trimmed ((printU64 count).toList ++ more ++ [last]) := by
  obtain ⟨first, rest, split⟩ :=
    List.exists_cons_of_ne_nil (printU64_ne_nil count)
  have member : first ∈ (printU64 count).toList := by
    rw [split]
    exact List.mem_cons_self
  refine .concat ?_
    (isWhiteSpace_of_isDigit (isDigit_of_mem_printU64 member)) closing
  rw [split]
  rfl

theorem parseU64_number (count : UInt64)
    (blank : ∀ char ∈ between, isWhiteSpace char = true) :
    parseU64 (String.ofList
      (trim ((printU64 count).toList ++ between))) = some count := by
  have trimmed : trim ([] ++ (printU64 count).toList ++ between) =
      (printU64 count).toList :=
    trim_pad (trimmed_digits count) (printU64_ne_nil count)
      (List.forall_mem_nil _) blank
  rw [List.nil_append] at trimmed
  rw [trimmed, String.ofList_toList, parseU64_printU64]

theorem parseDuration_of_trim {value text : List Char}
    (trimmed : trim value = text) :
    parseDuration (String.ofList value) =
      match stripSuffix? text ['m', 's'] with
      | some stripped =>
          (parseU64 (String.ofList (trim stripped))).map Duration.ofMillis
      | none =>
          match stripSuffix? text ['s'] with
          | some stripped =>
              (parseU64 (String.ofList (trim stripped))).map Duration.ofSecs
          | none => (parseU64 (String.ofList text)).map Duration.ofSecs := by
  rw [← trimmed]
  simp only [parseDuration, String.toList_ofList]

/-- A duration is read from a number and its unit, with any white space around
them. -/
theorem parseDuration_print (unit : DurationUnit) (count : UInt64)
    (blankBefore : ∀ char ∈ before, isWhiteSpace char = true)
    (blankBetween : ∀ char ∈ between, isWhiteSpace char = true)
    (blankAfter : ∀ char ∈ after, isWhiteSpace char = true) :
    parseDuration (String.ofList (before ++
      ((printU64 count).toList ++ between ++ unit.suffix) ++ after)) =
        some (unit.duration count) := by
  have number := parseU64_number count blankBetween
  have noLetter := not_mem_number count 'm' blankBetween rfl rfl
  cases unit with
  | millis =>
      have trimmed : Trimmed
          ((printU64 count).toList ++ between ++ ['m', 's']) := by
        have closed : isWhiteSpace 's' = false := rfl
        simpa using trimmed_number count (between ++ ['m']) closed
      rw [DurationUnit.suffix, parseDuration_of_trim
        (trim_pad trimmed (by simp) blankBefore blankAfter),
        stripSuffix?_append]
      simp only [number, Option.map_some, DurationUnit.duration]
  | secs =>
      have closed : isWhiteSpace 's' = false := rfl
      have absent : ¬['m', 's'] <:+
          (printU64 count).toList ++ between ++ ['s'] := by
        refine not_suffix_of_not_mem List.mem_cons_self fun member => ?_
        rcases List.mem_append.mp member with inside | last
        · exact noLetter inside
        · simp at last
      rw [DurationUnit.suffix, parseDuration_of_trim
        (trim_pad (trimmed_number count between closed) (by simp) blankBefore
          blankAfter),
        stripSuffix?_eq_none absent, stripSuffix?_append]
      simp only [number, Option.map_some, DurationUnit.duration]
  | bare =>
      have outside : ∀ char ∈ between ++ after, isWhiteSpace char = true := by
        intro char member
        rcases List.mem_append.mp member with inner | outer
        · exact blankBetween char inner
        · exact blankAfter char outer
      have trimmed := trim_pad (trimmed_digits count) (printU64_ne_nil count)
        blankBefore outside
      have noMillis : 'm' ∉ (printU64 count).toList :=
        fun member => noLetter (List.mem_append_left _ member)
      have noSecs : 's' ∉ (printU64 count).toList := fun member =>
        not_mem_number count 's' blankBetween rfl rfl
          (List.mem_append_left _ member)
      have joined : before ++ ((printU64 count).toList ++ between ++ []) ++
          after = before ++ (printU64 count).toList ++ (between ++ after) := by
        simp
      rw [DurationUnit.suffix, joined, parseDuration_of_trim trimmed,
        stripSuffix?_eq_none
          (not_suffix_of_not_mem List.mem_cons_self noMillis),
        stripSuffix?_eq_none
          (not_suffix_of_not_mem List.mem_cons_self noSecs)]
      simp only [String.ofList_toList, parseU64_printU64, Option.map_some,
        DurationUnit.duration]

theorem zero_lt_duration (unit : DurationUnit) (count : UInt64) :
    Duration.zero.lt (unit.duration count) = decide (0 < count) := by
  rw [Bool.eq_iff_iff, Duration.lt_iff, decide_eq_true_eq,
    unit.asNanos_duration, UInt64.lt_iff_toNat_lt]
  have zero : Duration.zero.asNanos = 0 := rfl
  have unitPositive : 0 < unit.nanos := by cases unit <;> decide
  rw [zero]
  exact Nat.mul_pos_iff_of_pos_right unitPositive

/-- `HOPR_RUNTIME_POLL_WARN_EVERY` is read as it was written, in any unit and
with any white space, unless it is zero. -/
theorem config_reads_warnEvery (environment : Environment)
    (unit : DurationUnit) (count : UInt64) (before between after : List Char)
    (blank : ∀ char ∈ before ++ between ++ after, isWhiteSpace char = true)
    (written : environment "HOPR_RUNTIME_POLL_WARN_EVERY" =
      some (String.ofList (before ++
        ((printU64 count).toList ++ between ++ unit.suffix) ++ after))) :
    (config environment).warnEvery =
      if 0 < count then unit.duration count else defaultWarnEvery := by
  have blankBefore : ∀ char ∈ before, isWhiteSpace char = true :=
    fun char member => blank char (by simp [member])
  have blankBetween : ∀ char ∈ between, isWhiteSpace char = true :=
    fun char member => blank char (by simp [member])
  have blankAfter : ∀ char ∈ after, isWhiteSpace char = true :=
    fun char member => blank char (by simp [member])
  have reads :=
    parseDuration_print unit count blankBefore blankBetween blankAfter
  have number : (config environment).warnEvery =
      ((some (unit.duration count)).filter Duration.zero.lt).getD
        defaultWarnEvery := by
    rw [← reads]
    simp only [config, written, Option.bind_some]
  rw [number, Option.filter_some, zero_lt_duration]
  by_cases positive : 0 < count <;> simp [positive]

/-- A quarter of a second, with a blank on every side. -/
theorem config_reads_warnEvery_millis :
    (config fun _ => some " 250 ms ").warnEvery = .ofMillis 250 := by
  have blank : ∀ char ∈ [' '] ++ [' '] ++ [' '], isWhiteSpace char = true := by
    intro char member
    simp only [List.mem_append, List.mem_singleton, or_self] at member
    subst member
    decide
  have reads := config_reads_warnEvery (fun _ => some " 250 ms ") .millis 250
    [' '] [' '] [' '] blank (by decide)
  rw [reads]
  rfl

end Print

structure PollDiagnosticState where
  totalPolls : UInt64
  lastWarnNanos : UInt64
  deriving DecidableEq

structure PollWarning where
  totalPolls : UInt64
  elapsed : Duration
  deriving DecidableEq

namespace PollDiagnosticState

/-- What `PollDiagnosticFuture::poll` does before it polls the future, with the
elapsed time that it measures if it has to. -/
def poll (cfg : DiagnosticsConfig) (state : PollDiagnosticState)
    (elapsed : Duration) : PollDiagnosticState × List PollWarning :=
  let totalPolls := state.totalPolls + 1
  if cfg.warnAfter ≤ totalPolls then
    match shouldWarn cfg.warnEvery elapsed state.lastWarnNanos with
    | .leave _ => (⟨totalPolls, state.lastWarnNanos⟩, [])
    | .exchange nanos _ => (⟨totalPolls, nanos⟩, [⟨totalPolls, elapsed⟩])
  else (⟨totalPolls, state.lastWarnNanos⟩, [])

/-- Several polls and their warnings. -/
def polls (cfg : DiagnosticsConfig) :
    PollDiagnosticState → List Duration →
      PollDiagnosticState × List PollWarning
  | state, [] => (state, [])
  | state, elapsed :: rest =>
      let polled := state.poll cfg elapsed
      let others := polls cfg polled.1 rest
      (others.1, polled.2 ++ others.2)

/-- The polls call `should_warn` alone, and warn when it has exchanged. -/
structure Follows (state : PollDiagnosticState)
    (warnings : List PollWarning)
    (before after : State Duration UInt64 Bool) : Prop where
  counter : state.lastWarnNanos = after.value
  warned : after.exchanges.map Prod.snd =
    before.exchanges.map Prod.snd ++
      warnings.map fun warning => warning.elapsed.clampNanos

theorem Follows.trans {middle state : PollDiagnosticState}
    {first second : List PollWarning}
    {before between after : State Duration UInt64 Bool}
    (early : Follows middle first before between)
    (late : Follows state second between after) :
    Follows state (first ++ second) before after where
  counter := late.counter
  warned := by
    rw [late.warned, early.warned, List.map_append, List.append_assoc]

theorem poll_early {cfg : DiagnosticsConfig} {state : PollDiagnosticState}
    (early : ¬cfg.warnAfter ≤ state.totalPolls + 1) (elapsed : Duration) :
    state.poll cfg elapsed =
      (⟨state.totalPolls + 1, state.lastWarnNanos⟩, []) := by
  simp only [poll, if_neg early]

theorem poll_leave {cfg : DiagnosticsConfig} {state : PollDiagnosticState}
    {elapsed : Duration} {answer : Bool}
    (reached : cfg.warnAfter ≤ state.totalPolls + 1)
    (decided : shouldWarn cfg.warnEvery elapsed state.lastWarnNanos =
      .leave answer) :
    state.poll cfg elapsed =
      (⟨state.totalPolls + 1, state.lastWarnNanos⟩, []) := by
  simp only [poll, if_pos reached, decided]

theorem poll_exchange {cfg : DiagnosticsConfig} {state : PollDiagnosticState}
    {elapsed : Duration} {nanos : UInt64} {answer : Bool}
    (reached : cfg.warnAfter ≤ state.totalPolls + 1)
    (decided : shouldWarn cfg.warnEvery elapsed state.lastWarnNanos =
      .exchange nanos answer) :
    state.poll cfg elapsed =
      (⟨state.totalPolls + 1, nanos⟩, [⟨state.totalPolls + 1, elapsed⟩]) := by
  simp only [poll, if_pos reached, decided]

theorem follows_poll (cfg : DiagnosticsConfig) {state : PollDiagnosticState}
    (elapsed : Duration) {limiter : State Duration UInt64 Bool}
    (sound : Sound (shouldWarn cfg.warnEvery) limiter)
    (counter : state.lastWarnNanos = limiter.value) :
    ∃ after, Reachable (warnStep cfg.warnEvery) limiter after ∧
      Follows (state.poll cfg elapsed).1 (state.poll cfg elapsed).2 limiter
        after := by
  by_cases reached : cfg.warnAfter ≤ state.totalPolls + 1
  · refine ⟨_, reachable_settle sound elapsed, ?_⟩
    cases decided : shouldWarn cfg.warnEvery elapsed limiter.value with
    | leave answer =>
        rw [State.settle_leave decided, poll_leave reached
          (counter ▸ decided)]
        exact ⟨counter, (List.append_nil _).symm⟩
    | exchange nanos answer =>
        obtain ⟨_, own, _⟩ := shouldWarn_exchange cfg.warnEvery_pos decided
        rw [State.settle_exchange decided, poll_exchange reached
          (counter ▸ decided)]
        refine ⟨rfl, ?_⟩
        rw [List.map_append, own]
        rfl
  · rw [poll_early reached]
    exact ⟨limiter, Reachable.refl, counter, (List.append_nil _).symm⟩

theorem follows_polls (cfg : DiagnosticsConfig) (times : List Duration) :
    ∀ {state : PollDiagnosticState} {limiter : State Duration UInt64 Bool},
      Sound (shouldWarn cfg.warnEvery) limiter →
      state.lastWarnNanos = limiter.value →
      ∃ after, Reachable (warnStep cfg.warnEvery) limiter after ∧
        Follows (state.polls cfg times).1 (state.polls cfg times).2 limiter
          after := by
  induction times with
  | nil =>
      intro state limiter _ counter
      exact ⟨limiter, Reachable.refl, counter, by simp [polls]⟩
  | cons elapsed rest induction =>
      intro state limiter sound counter
      obtain ⟨middle, first, polled⟩ := follows_poll cfg elapsed sound counter
      obtain ⟨after, later, others⟩ :=
        induction (sound_of_reachable first sound) polled.counter
      exact ⟨after, first.trans later, polled.trans others⟩

/-- Whatever the elapsed times are, the warnings of a polled future are
`warn_every` apart. -/
theorem spaced_polls (cfg : DiagnosticsConfig) (times : List Duration) :
    Spaced cfg.warnEvery.clampNanos.toNat
      (0 :: (polls cfg ⟨0, 0⟩ times).2.map fun warning =>
        warning.elapsed.clampNanos.toNat) := by
  have before : Sound (shouldWarn cfg.warnEvery) warnStart := Sound.start 0
  have counter : (⟨0, 0⟩ : PollDiagnosticState).lastWarnNanos =
      warnStart.value := rfl
  obtain ⟨after, ⟨labels, ended⟩, follows⟩ :=
    follows_polls cfg times before counter
  have spaced := spaced_of_sound cfg.warnEvery_pos (sound_of_run ended)
    (initial_of_run ended)
  have same : warnedAt after =
      (polls cfg ⟨0, 0⟩ times).2.map fun warning =>
        warning.elapsed.clampNanos.toNat := by
    have none : warnStart.exchanges = [] := rfl
    have warned := follows.warned
    rw [none, List.map_nil, List.nil_append] at warned
    have numbers := congrArg (List.map UInt64.toNat) warned
    rw [List.map_map, List.map_map] at numbers
    exact numbers
  rw [same] at spaced
  exact spaced

end PollDiagnosticState

end HoprUtilities.Runtime
