import HoprUtilities.Parallelize.PoolStep

/-!
# The configuration in force

`apply` stores a configuration one static at a time, and the two ways to
configure the arbiter look at `ARBITRATION_CONFIGURED` at different moments:
`with_arbitration` sets it after its stores, `with_arbitration_once` before.
Two calls that overlap can leave a mixture of their settings, and a call of
`with_arbitration_once` that has won the flag can store after an explicit
override.  This module proves that nothing else goes wrong: as long as the
calls do not overlap in these two ways, the flag keeps the winner from storing
after an override, and the settings are those of one call, and of an explicit
one if there is any.
-/

namespace HoprUtilities.Parallelize

open HoprUtilities.Lib

variable {α π : Type}

/-- The settings are those of the configuration; the percentages count only
when arbitration is enabled. -/
def Settings.InForce (settings : Settings) : ArbitrationConfig → Prop
  | .disabled => settings.enabled = false
  | .enabled occupancyPct encodeReservePct =>
      settings.enabled = true ∧
        settings.occupancyPct = clampPct occupancyPct ∧
        settings.encodeReservePct = clampPct encodeReservePct

instance (settings : Settings) (config : ArbitrationConfig) :
    Decidable (settings.InForce config) :=
  match config with
  | .disabled => inferInstanceAs (Decidable (_ = _))
  | .enabled _ _ => inferInstanceAs (Decidable (_ ∧ _ ∧ _))

namespace ConfigCall

/-- The next step stores a setting. -/
def stores (call : ConfigCall) : Bool :=
  match call.pc with
  | .storeDisabled | .storeOccupancy | .storeReserve | .storeEnabled => true
  | _ => false

/-- The call has stored some of its settings and not all. -/
def midway (call : ConfigCall) : Bool :=
  match call.pc with
  | .storeReserve | .storeEnabled => true
  | _ => false

/-- The call has stored at least one setting. -/
def begun (call : ConfigCall) : Bool :=
  match call.pc with
  | .storeReserve | .storeEnabled | .notify | .storeConfigured
  | .finished true => true
  | _ => false

/-- A call of `with_arbitration` that has stored a setting. -/
def overrides (call : ConfigCall) : Bool := !call.once && call.begun

/-- A call of `with_arbitration_once` that has won the flag. -/
def won (call : ConfigCall) : Bool :=
  match call.pc with
  | .claim | .finished false => false
  | _ => call.once

/-- The call has taken the flag: it has won it or has stored without it. -/
def effective (call : ConfigCall) : Bool := call.won || call.overrides

/-- A call of `with_arbitration` that has begun to store and has not yet set
the flag. -/
def unflagged (call : ConfigCall) : Bool :=
  !call.once &&
    match call.pc with
    | .storeReserve | .storeEnabled | .notify | .storeConfigured => true
    | _ => false

/-- A call of `with_arbitration_once` that has won the flag and has not yet
stored everything. -/
def applying (call : ConfigCall) : Bool := call.once && call.stores

/-- The call does not overlap with another one: it does not win the flag while
an override is on its way to set it, an override does not begin while the
winner of the flag still stores, and no call begins to store percentages while
another one is midway. -/
def inTurn (settings : Settings) (configs : List ConfigCall)
    (call : ConfigCall) : Bool :=
  match call.pc with
  | .claim => settings.configured || configs.all (!·.unflagged)
  | .storeDisabled => call.once || configs.all (!·.applying)
  | .storeOccupancy =>
      (call.once || configs.all (!·.applying)) && configs.all (!·.midway)
  | _ => true

end ConfigCall

/-- The configuration call that moves is in turn. -/
def State.inTurn (state : State α π) : Label α π → Bool
  | .config index =>
      (state.configs[index]?).all
        (ConfigCall.inTurn state.statics.settings state.configs)
  | _ => true

namespace ConfigCall

/-- The places of a call follow from its kind and its configuration. -/
def WellPlaced (call : ConfigCall) : Prop :=
  match call.pc, call.config with
  | .claim, _ | .finished false, _ => call.once = true
  | .storeDisabled, config => config = .disabled
  | .storeOccupancy, .disabled | .storeReserve, .disabled
  | .storeEnabled, .disabled => False
  | .storeConfigured, _ => call.once = false
  | _, _ => True

/-- What a call that is midway has stored is still there. -/
def Keeps (settings : Settings) (call : ConfigCall) : Prop :=
  match call.pc, call.config with
  | .storeReserve, .enabled occupancyPct _ =>
      settings.occupancyPct = clampPct occupancyPct
  | .storeEnabled, .enabled occupancyPct encodeReservePct =>
      settings.occupancyPct = clampPct occupancyPct ∧
        settings.encodeReservePct = clampPct encodeReservePct
  | _, _ => True

theorem wellPlaced_start (once : Bool) (config : ArbitrationConfig) :
    (start once config).WellPlaced := by
  cases once <;> cases config <;> simp [start, WellPlaced, applyPc]

theorem keeps_of_not_midway {settings : Settings} {call : ConfigCall}
    (done : call.midway = false) : call.Keeps settings := by
  unfold Keeps
  unfold midway at done
  split <;> simp_all

end ConfigCall

namespace ConfigStep

variable {settings after : Settings} {call next : ConfigCall}
  {signal : Signal}

theorem once_eq (step : ConfigStep settings call after next signal) :
    next.once = call.once := by
  cases step <;> rfl

theorem wellPlaced (step : ConfigStep settings call after next signal)
    (placed : call.WellPlaced) : next.WellPlaced := by
  cases step with
  | claim place =>
      unfold ConfigCall.WellPlaced
      cases call.config <;> simp [ConfigCall.applyPc]
  | notify place => cases once : call.once <;> simp [ConfigCall.WellPlaced]
  | refused place => simpa [ConfigCall.WellPlaced, place] using placed
  | storeOccupancy place config | storeReserve place config =>
      simp [ConfigCall.WellPlaced, config]
  | storeDisabled | storeEnabled | storeConfigured =>
      simp [ConfigCall.WellPlaced]

theorem winners (step : ConfigStep settings call after next signal) :
    next.won.toNat + settings.configured.toNat ≤
      call.won.toNat + after.configured.toNat := by
  cases step with
  | claim place unconfigured =>
      have bounded := Bool.toNat_le (ConfigCall.won
        { call with pc := ConfigCall.applyPc call.config })
      simp only [unconfigured, Bool.toNat_false, Bool.toNat_true]
      omega
  | storeConfigured place =>
      have bounded := Bool.toNat_le settings.configured
      simp only [ConfigCall.won, place, Bool.toNat_true]
      omega
  | notify place => cases once : call.once <;> simp [ConfigCall.won, place, once]
  | refused place | storeDisabled place | storeOccupancy place
  | storeReserve place | storeEnabled place =>
      simp [ConfigCall.won, place]

theorem configured_of_refusal
    (step : ConfigStep settings call after next signal)
    (refused : next.pc = .finished false) : after.configured = true := by
  cases step with
  | refused place configured => exact configured
  | claim | storeConfigured => rfl
  | notify => cases once : call.once <;> simp [once] at refused
  | storeDisabled | storeOccupancy | storeReserve | storeEnabled =>
      cases refused

theorem configured_mono (step : ConfigStep settings call after next signal)
    (configured : settings.configured = true) :
    after.configured = true := by
  cases step with
  | claim | storeConfigured => rfl
  | _ => exact configured

theorem effective_mono (step : ConfigStep settings call after next signal)
    (effective : call.effective = true) : next.effective = true := by
  revert effective
  cases step with
  | notify place =>
      cases once : call.once <;> simp [ConfigCall.effective, ConfigCall.won,
        ConfigCall.overrides, ConfigCall.begun, place, once]
  | claim place | refused place | storeDisabled place | storeOccupancy place
  | storeReserve place | storeEnabled place | storeConfigured place =>
      simp [ConfigCall.effective, ConfigCall.won, ConfigCall.overrides,
        ConfigCall.begun, place]

theorem configured_cause (step : ConfigStep settings call after next signal)
    (placed : call.WellPlaced) (configured : after.configured = true) :
    settings.configured = true ∨ next.effective = true := by
  cases step with
  | claim place unconfigured =>
      have once : call.once = true := by
        simpa [ConfigCall.WellPlaced, place] using placed
      right
      cases config : call.config <;> simp [ConfigCall.effective,
        ConfigCall.won, ConfigCall.applyPc, once]
  | storeConfigured place =>
      have explicit : call.once = false := by
        simpa [ConfigCall.WellPlaced, place] using placed
      right
      simp [ConfigCall.effective, ConfigCall.overrides, ConfigCall.begun,
        explicit]
  | _ => exact .inl configured

end ConfigStep

/-- The flag is won at most once, and it is set by the winner or by an
override. -/
structure Claimed (settings : Settings) (configs : List ConfigCall) :
    Prop where
  placed : ∀ call ∈ configs, call.WellPlaced
  winners : total (fun call => call.won.toNat) configs ≤
    settings.configured.toNat
  refused : ∀ call ∈ configs, call.pc = .finished false →
    settings.configured = true
  configured : settings.configured = true →
    ∃ call ∈ configs, call.effective = true

namespace Claimed

variable {settings after : Settings} {configs : List ConfigCall}

theorem initial (parsed : Option Nat) :
    Claimed (Statics.initial parsed).settings [] := by
  constructor <;> simp [Statics.initial]

theorem configure (claimed : Claimed settings configs) (once : Bool)
    (config : ArbitrationConfig) :
    Claimed settings (configs ++ [ConfigCall.start once config]) := by
  have fresh : (ConfigCall.start once config).won = false := by
    cases once <;> cases config <;>
      simp [ConfigCall.start, ConfigCall.won, ConfigCall.applyPc]
  constructor
  · exact forall_concat claimed.placed
      (ConfigCall.wellPlaced_start once config)
  · simpa [fresh] using claimed.winners
  · refine forall_concat claimed.refused ?_
    intro place
    cases once <;> cases config <;>
      simp [ConfigCall.start, ConfigCall.applyPc] at place
  · intro configured
    obtain ⟨call, member, effective⟩ := claimed.configured configured
    exact ⟨call, List.mem_append_left _ member, effective⟩

theorem config (claimed : Claimed settings configs) {index : Nat}
    {call next : ConfigCall} {signal : Signal}
    (current : configs[index]? = some call)
    (step : ConfigStep settings call after next signal) :
    Claimed after (configs.set index next) := by
  have placed := claimed.placed call (List.mem_of_getElem? current)
  constructor
  · exact forall_set claimed.placed (step.wellPlaced placed)
  · have counts := total_set (fun call => call.won.toNat) next current
    have before := claimed.winners
    have moved := step.winners
    omega
  · refine forall_set ?_ step.configured_of_refusal
    intro other member place
    exact step.configured_mono (claimed.refused other member place)
  · intro configured
    rcases step.configured_cause placed configured with earlier | effective
    · obtain ⟨other, member, effective⟩ := claimed.configured earlier
      by_cases same : other = call
      · subst same
        exact ⟨next, mem_set_self current, step.effective_mono effective⟩
      · exact ⟨other, mem_set_of_ne member current same, effective⟩
    · exact ⟨next, mem_set_self current, effective⟩

end Claimed

namespace ConfigStep

variable {settings after : Settings} {call next : ConfigCall}
  {signal : Signal}

theorem flagged (step : ConfigStep settings call after next signal)
    (placed : call.WellPlaced) (overriding : next.overrides = true) :
    next.unflagged = true ∨ after.configured = true := by
  have explicit : call.once = false := by
    rw [← step.once_eq]
    simp only [ConfigCall.overrides, Bool.and_eq_true, Bool.not_eq_eq_eq_not,
      Bool.not_true] at overriding
    exact overriding.1
  cases step with
  | storeConfigured place => exact .inr rfl
  | refused place | claim place =>
      rw [ConfigCall.WellPlaced, place] at placed
      cases placed.symm.trans explicit
  | notify | storeDisabled | storeOccupancy | storeReserve | storeEnabled =>
      left
      simp [ConfigCall.unflagged, explicit]

theorem applying_cause (step : ConfigStep settings call after next signal)
    (applying : next.applying = true) :
    call.applying = true ∨
      call.pc = .claim ∧ settings.configured = false := by
  cases step with
  | claim place unconfigured => exact .inr ⟨place, unconfigured⟩
  | refused | storeDisabled | storeEnabled | storeConfigured =>
      simp [ConfigCall.applying, ConfigCall.stores] at applying
  | notify =>
      cases once : call.once <;>
        simp [ConfigCall.applying, ConfigCall.stores, once] at applying
  | storeOccupancy place | storeReserve place =>
      left
      simpa [ConfigCall.applying, ConfigCall.stores, place] using applying

theorem overrides_cause (step : ConfigStep settings call after next signal)
    (overriding : next.overrides = true) :
    call.overrides = true ∨
      call.once = false ∧
        (call.pc = .storeDisabled ∨ call.pc = .storeOccupancy) := by
  cases step with
  | storeDisabled place =>
      right
      simpa [ConfigCall.overrides, ConfigCall.begun, place] using overriding
  | storeOccupancy place =>
      right
      simpa [ConfigCall.overrides, ConfigCall.begun, place] using overriding
  | refused => simp [ConfigCall.overrides, ConfigCall.begun] at overriding
  | claim =>
      cases config : call.config <;>
        simp [ConfigCall.overrides, ConfigCall.begun, ConfigCall.applyPc,
          config] at overriding
  | notify place =>
      left
      simp only [ConfigCall.overrides, Bool.and_eq_true] at overriding ⊢
      exact ⟨overriding.1, by simp [ConfigCall.begun, place]⟩
  | storeReserve place | storeEnabled place | storeConfigured place =>
      left
      simpa [ConfigCall.overrides, ConfigCall.begun, place] using overriding

end ConfigStep

/-- The winner of the flag stores before any override does: an override that
has stored is about to set the flag or has set it. -/
structure Ordered (settings : Settings) (configs : List ConfigCall) :
    Prop where
  flagged : ∀ call ∈ configs, call.overrides = true →
    call.unflagged = true ∨ settings.configured = true
  clear : ∀ call ∈ configs, call.applying = true →
    ∀ other ∈ configs, other.overrides = false

namespace Ordered

variable {settings after : Settings} {configs : List ConfigCall}
  {index : Nat} {call next : ConfigCall} {signal : Signal}

theorem initial (parsed : Option Nat) :
    Ordered (Statics.initial parsed).settings [] := by
  constructor <;> simp

theorem configure (ordered : Ordered settings configs) (once : Bool)
    (config : ArbitrationConfig) :
    Ordered settings (configs ++ [ConfigCall.start once config]) := by
  have fresh : (ConfigCall.start once config).overrides = false ∧
      (ConfigCall.start once config).applying = false := by
    cases once <;> cases config <;> exact ⟨rfl, rfl⟩
  constructor
  · refine forall_concat ordered.flagged ?_
    intro overriding
    rw [fresh.1] at overriding
    cases overriding
  · refine forall_concat ?_ ?_
    · intro other member applying
      exact forall_concat (ordered.clear other member applying) fresh.1
    · intro applying
      rw [fresh.2] at applying
      cases applying

theorem untouched (ordered : Ordered settings configs)
    (turn : call.inTurn settings configs = true) (place : call.pc = .claim)
    (unconfigured : settings.configured = false) :
    ∀ other ∈ configs, other.overrides = false := by
  rw [ConfigCall.inTurn, place] at turn
  simp only [unconfigured, Bool.false_or, List.all_eq_true,
    Bool.not_eq_eq_eq_not, Bool.not_true] at turn
  intro other member
  by_contra overriding
  rcases ordered.flagged other member (by simpa using overriding) with
    unflagged | configured
  · rw [turn other member] at unflagged
    cases unflagged
  · rw [unconfigured] at configured
    cases configured

theorem idle_of_begins (turn : call.inTurn settings configs = true)
    (explicit : call.once = false)
    (place : call.pc = .storeDisabled ∨ call.pc = .storeOccupancy) :
    ∀ other ∈ configs, other.applying = false := by
  rw [ConfigCall.inTurn] at turn
  rcases place with place | place <;> rw [place] at turn
  · simpa [explicit] using turn
  · simp only [explicit, Bool.false_or, Bool.and_eq_true] at turn
    simpa using turn.1

theorem config (ordered : Ordered settings configs)
    (current : configs[index]? = some call) (placed : call.WellPlaced)
    (turn : call.inTurn settings configs = true)
    (step : ConfigStep settings call after next signal) :
    Ordered after (configs.set index next) := by
  have member := List.mem_of_getElem? current
  constructor
  · refine forall_set ?_ (step.flagged placed)
    intro other present overriding
    exact (ordered.flagged other present overriding).imp_right
      step.configured_mono
  · refine forall_set ?_ ?_
    · intro winner present applying
      refine forall_set (ordered.clear winner present applying) ?_
      by_contra overriding
      rcases step.overrides_cause (by simpa using overriding) with
        before | ⟨explicit, place⟩
      · rw [ordered.clear winner present applying call member] at before
        cases before
      · rw [idle_of_begins turn explicit place winner present] at applying
        cases applying
    · intro applying
      refine forall_set ?_ ?_
      · rcases step.applying_cause applying with before | ⟨place, free⟩
        · exact ordered.clear call member before
        · exact ordered.untouched turn place free
      · simp only [ConfigCall.applying, Bool.and_eq_true] at applying
        simp [ConfigCall.overrides, applying.1]

end Ordered

/-- The settings are those of the call, and the call is an explicit one if any
explicit call has stored. -/
structure Rules (settings : Settings) (configs : List ConfigCall)
    (call : ConfigCall) : Prop where
  begun : call.begun = true
  inForce : settings.InForce call.config
  explicit : ∀ other ∈ configs, other.overrides = true → call.once = false

/-- One call at most is midway, and its stores are untouched; when there is
none, some call rules. -/
structure Stored (settings : Settings) (configs : List ConfigCall) :
    Prop where
  alone : total (fun call => call.midway.toNat) configs ≤ 1
  keeps : ∀ call ∈ configs, call.Keeps settings
  rules : (∀ call ∈ configs, call.midway = false) →
    (∃ call ∈ configs, call.begun = true) →
    ∃ call ∈ configs, Rules settings configs call

structure ConfigStep.Quiet (settings : Settings) (call : ConfigCall)
    (after : Settings) (next : ConfigCall) : Prop where
  enabled : after.enabled = settings.enabled
  occupancyPct : after.occupancyPct = settings.occupancyPct
  encodeReservePct : after.encodeReservePct = settings.encodeReservePct
  still : call.midway = false ∧ next.midway = false
  begun : next.begun = call.begun
  once : next.once = call.once
  config : next.config = call.config

theorem Settings.InForce.congr {settings after : Settings}
    (enabled : after.enabled = settings.enabled)
    (occupancyPct : after.occupancyPct = settings.occupancyPct)
    (encodeReservePct : after.encodeReservePct = settings.encodeReservePct)
    {config : ArbitrationConfig} (inForce : settings.InForce config) :
    after.InForce config := by
  cases config <;>
    simpa [InForce, enabled, occupancyPct, encodeReservePct] using inForce

theorem ConfigCall.Keeps.congr {settings after : Settings}
    (occupancyPct : after.occupancyPct = settings.occupancyPct)
    (encodeReservePct : after.encodeReservePct = settings.encodeReservePct)
    {call : ConfigCall} (keeps : call.Keeps settings) :
    call.Keeps after := by
  unfold Keeps
  rw [occupancyPct, encodeReservePct]
  exact keeps

namespace Stored

variable {settings after : Settings} {configs : List ConfigCall}
  {index : Nat} {call next : ConfigCall}

theorem initial (parsed : Option Nat) :
    Stored (Statics.initial parsed).settings [] := by
  constructor <;> simp

theorem configure (stored : Stored settings configs) (once : Bool)
    (config : ArbitrationConfig) :
    Stored settings (configs ++ [ConfigCall.start once config]) := by
  have still : (ConfigCall.start once config).midway = false := by
    cases once <;> cases config <;>
      simp [ConfigCall.start, ConfigCall.midway, ConfigCall.applyPc]
  have fresh : (ConfigCall.start once config).begun = false := by
    cases once <;> cases config <;>
      simp [ConfigCall.start, ConfigCall.begun, ConfigCall.applyPc]
  constructor
  · simpa [still] using stored.alone
  · exact forall_concat stored.keeps (ConfigCall.keeps_of_not_midway still)
  · intro idle some
    obtain ⟨first, present, begun⟩ := some
    have earlier : first ∈ configs := by
      rcases List.mem_append.mp present with earlier | added
      · exact earlier
      · rw [List.mem_singleton.mp added, fresh] at begun
        cases begun
    obtain ⟨ruler, member, rules⟩ := stored.rules
      (fun call member => idle call (List.mem_append_left _ member))
      ⟨first, earlier, begun⟩
    refine ⟨ruler, List.mem_append_left _ member, rules.begun, rules.inForce,
      forall_concat rules.explicit ?_⟩
    intro overriding
    simp [ConfigCall.overrides, fresh] at overriding

theorem still_of_ne (stored : Stored settings configs)
    (current : configs[index]? = some call) (midway : call.midway = true)
    {place : Nat} {other : ConfigCall} (apart : place ≠ index)
    (here : configs[place]? = some other) : other.midway = false := by
  by_contra moving
  have both : other.midway = true := by simpa using moving
  exact apart (index_eq_of_total_le_one stored.alone here (by simp [both])
    current (by simp [midway]))

theorem alone_set (stored : Stored settings configs)
    (current : configs[index]? = some call)
    (fair : next.midway = true → call.midway = true ∨
      ∀ other ∈ configs, other.midway = false) :
    total (fun call => call.midway.toNat) (configs.set index next) ≤ 1 := by
  have counts := total_set (fun call => call.midway.toNat) next current
  have before := stored.alone
  have bounded := Bool.toNat_le next.midway
  by_cases moving : next.midway = true
  · rcases fair moving with same | still
    · simp only [moving, same] at counts
      omega
    · have none : total (fun call => call.midway.toNat) configs = 0 :=
        total_eq_zero (fun other member => by simp [still other member])
      omega
  · have zero : next.midway.toNat = 0 := by simpa using moving
    omega

theorem quiet (stored : Stored settings configs)
    (current : configs[index]? = some call)
    (quiet : ConfigStep.Quiet settings call after next) :
    Stored after (configs.set index next) := by
  have member := List.mem_of_getElem? current
  constructor
  · exact stored.alone_set current (by simp [quiet.still.2])
  · refine forall_set ?_ (ConfigCall.keeps_of_not_midway quiet.still.2)
    intro other present
    exact (stored.keeps other present).congr quiet.occupancyPct
      quiet.encodeReservePct
  · intro idle some
    have idleBefore : ∀ other ∈ configs, other.midway = false := by
      intro other present
      by_cases same : other = call
      · rw [same]
        exact quiet.still.1
      · exact idle other (mem_set_of_ne present current same)
    have begunBefore : ∃ other ∈ configs, other.begun = true := by
      obtain ⟨other, present, begun⟩ := some
      rcases List.mem_or_eq_of_mem_set present with stays | same
      · exact ⟨other, stays, begun⟩
      · rw [same, quiet.begun] at begun
        exact ⟨call, member, begun⟩
    obtain ⟨ruler, present, rules⟩ := stored.rules idleBefore begunBefore
    have explicit : ∀ other ∈ configs.set index next,
        other.overrides = true → ruler.once = false := by
      refine forall_set rules.explicit ?_
      intro overriding
      apply rules.explicit call member
      simpa [ConfigCall.overrides, quiet.once, quiet.begun] using overriding
    have inForce := rules.inForce.congr quiet.enabled quiet.occupancyPct
      quiet.encodeReservePct
    by_cases same : ruler = call
    · subst same
      refine ⟨next, mem_set_self current, ?_, ?_, ?_⟩
      · rw [quiet.begun]
        exact rules.begun
      · rw [quiet.config]
        exact inForce
      · rw [quiet.once]
        exact explicit
    · exact ⟨ruler, mem_set_of_ne present current same, rules.begun, inForce,
        explicit⟩

theorem rules_of_stores (ordered : Ordered settings configs)
    (current : configs[index]? = some call) (stores : call.stores = true)
    (once : next.once = call.once) (begun : next.begun = true)
    (inForce : after.InForce next.config) :
    ∃ ruler ∈ configs.set index next,
      Rules after (configs.set index next) ruler := by
  refine ⟨next, mem_set_self current, begun, inForce, forall_set ?_ ?_⟩
  · intro other member overriding
    rw [once]
    by_contra winner
    have applying : call.applying = true := by
      simpa [ConfigCall.applying, stores] using winner
    rw [ordered.clear call (List.mem_of_getElem? current) applying other
      member] at overriding
    cases overriding
  · intro overriding
    simp only [ConfigCall.overrides, Bool.and_eq_true,
      Bool.not_eq_eq_eq_not, Bool.not_true] at overriding
    exact overriding.1

theorem still_of_begins (turn : call.inTurn settings configs = true)
    (place : call.pc = .storeOccupancy) :
    ∀ other ∈ configs, other.midway = false := by
  rw [ConfigCall.inTurn, place, Bool.and_eq_true] at turn
  simpa using turn.2

theorem keeps_of_midway (stored : Stored settings configs)
    (current : configs[index]? = some call) (midway : call.midway = true)
    (own : next.Keeps after) :
    ∀ other ∈ configs.set index next, other.Keeps after := by
  intro other member
  rcases mem_set_cases member with rfl | ⟨place, apart, here⟩
  · exact own
  · exact ConfigCall.keeps_of_not_midway
      (stored.still_of_ne current midway apart here)

theorem config (stored : Stored settings configs)
    (ordered : Ordered settings configs) {signal : Signal}
    (current : configs[index]? = some call) (placed : call.WellPlaced)
    (turn : call.inTurn settings configs = true)
    (step : ConfigStep settings call after next signal) :
    Stored after (configs.set index next) := by
  have once := step.once_eq
  have keeps := stored.keeps call (List.mem_of_getElem? current)
  cases step with
  | refused place | storeConfigured place =>
      exact stored.quiet current ⟨rfl, rfl, rfl,
        by simp [ConfigCall.midway, place], by simp [ConfigCall.begun, place],
        rfl, rfl⟩
  | claim place =>
      refine stored.quiet current ⟨rfl, rfl, rfl, ?_, ?_, rfl, rfl⟩ <;>
        cases call.config <;>
        simp [ConfigCall.midway, ConfigCall.begun, ConfigCall.applyPc, place]
  | notify place =>
      refine stored.quiet current ⟨rfl, rfl, rfl, ?_, ?_, rfl, rfl⟩ <;>
        cases call.once <;>
        simp [ConfigCall.midway, ConfigCall.begun, place]
  | storeDisabled place =>
      have disabled : call.config = .disabled := by
        simpa [ConfigCall.WellPlaced, place] using placed
      refine ⟨stored.alone_set current (by simp [ConfigCall.midway]),
        forall_set ?_ (ConfigCall.keeps_of_not_midway rfl), ?_⟩
      · intro other member
        exact (stored.keeps other member).congr rfl rfl
      · intro _ _
        exact rules_of_stores ordered current
          (by simp [ConfigCall.stores, place]) once rfl
          (by simp [Settings.InForce, disabled])
  | storeOccupancy place config =>
      have still := still_of_begins turn place
      refine ⟨stored.alone_set current (fun _ => .inr still), forall_set ?_ ?_,
        ?_⟩
      · intro other member
        exact ConfigCall.keeps_of_not_midway (still other member)
      · simp [ConfigCall.Keeps, config]
      · intro idle
        cases idle _ (mem_set_self current)
  | storeReserve place config =>
      have midway : call.midway = true := by simp [ConfigCall.midway, place]
      refine ⟨stored.alone_set current (fun _ => .inl midway),
        stored.keeps_of_midway current midway ?_, ?_⟩
      · simpa [ConfigCall.Keeps, place, config] using keeps
      · intro idle
        cases idle _ (mem_set_self current)
  | storeEnabled place =>
      have midway : call.midway = true := by simp [ConfigCall.midway, place]
      refine ⟨stored.alone_set current (fun _ => .inl midway),
        stored.keeps_of_midway current midway
          (ConfigCall.keeps_of_not_midway rfl), ?_⟩
      · intro _ _
        refine rules_of_stores ordered current
          (by simp [ConfigCall.stores, place]) once rfl ?_
        cases config : call.config with
        | disabled =>
            simp [ConfigCall.WellPlaced, place, config] at placed
        | enabled occupancyPct encodeReservePct =>
            simpa [ConfigCall.Keeps, place, config, Settings.InForce]
              using keeps

end Stored

/-- Every configuration call has returned. -/
def State.Returned (state : State α π) : Prop :=
  ∀ call ∈ state.configs, ∃ applied, call.pc = .finished applied

/-- The settings are those of one call of `with_arbitration` if there was one,
and else those of the one call of `with_arbitration_once` that returned
`true`. -/
structure State.Coherent (state : State α π) : Prop where
  explicit : (∃ call ∈ state.configs, call.once = false) →
    ∃ call ∈ state.configs, call.once = false ∧
      state.statics.settings.InForce call.config
  firstWins : state.configs ≠ [] →
    (∀ call ∈ state.configs, call.once = true) →
    ∃ (index : Nat) (call : ConfigCall),
      state.configs[index]? = some call ∧ call.pc = .finished true ∧
      state.statics.settings.InForce call.config ∧
      ∀ (place : Nat) (other : ConfigCall),
        state.configs[place]? = some other → other.pc = .finished true →
        place = index

/-- A call that has returned has either been refused or stored everything. -/
theorem Claimed.begun_of_returned {settings : Settings}
    {configs : List ConfigCall} (claimed : Claimed settings configs)
    {call : ConfigCall} (member : call ∈ configs) {applied : Bool}
    (returned : call.pc = .finished applied) (explicit : call.once = false) :
    call.begun = true := by
  cases applied with
  | false =>
      have once := claimed.placed call member
      simp [ConfigCall.WellPlaced, returned, explicit] at once
  | true => simp [ConfigCall.begun, returned]

/-- Some call has won the flag, whether or not the first one was refused. -/
theorem Claimed.exists_applied {state : State α π}
    (claimed : Claimed state.statics.settings state.configs)
    (returned : state.Returned) (nonempty : state.configs ≠ []) :
    ∃ call ∈ state.configs, call.pc = .finished true := by
  obtain ⟨first, present⟩ := List.exists_mem_of_ne_nil _ nonempty
  obtain ⟨applied, ended⟩ := returned first present
  cases applied with
  | true => exact ⟨first, present, ended⟩
  | false =>
      obtain ⟨call, member, effective⟩ :=
        claimed.configured (claimed.refused first present ended)
      obtain ⟨applied, ended⟩ := returned call member
      refine ⟨call, member, ?_⟩
      cases applied with
      | true => exact ended
      | false =>
          simp [ConfigCall.effective, ConfigCall.won,
            ConfigCall.overrides, ConfigCall.begun, ended] at effective

theorem State.coherent_of_stored {state : State α π}
    (claimed : Claimed state.statics.settings state.configs)
    (stored : Stored state.statics.settings state.configs)
    (returned : state.Returned) : state.Coherent := by
  have idle : ∀ call ∈ state.configs, call.midway = false := by
    intro call member
    obtain ⟨applied, ended⟩ := returned call member
    simp [ConfigCall.midway, ended]
  have rules := stored.rules idle
  constructor
  · intro some
    obtain ⟨call, member, explicit⟩ := some
    obtain ⟨applied, ended⟩ := returned call member
    have begun := claimed.begun_of_returned member ended explicit
    obtain ⟨ruler, present, ruling⟩ := rules ⟨call, member, begun⟩
    refine ⟨ruler, present, ?_, ruling.inForce⟩
    exact ruling.explicit call member
      (by simp [ConfigCall.overrides, explicit, begun])
  · intro nonempty allOnce
    obtain ⟨winner, member, ended⟩ := claimed.exists_applied returned nonempty
    have won : ∀ call ∈ state.configs, call.pc = .finished true →
        call.won = true := by
      intro call present ended
      simp [ConfigCall.won, ended, allOnce call present]
    obtain ⟨ruler, present, ruling⟩ :=
      rules ⟨winner, member, by simp [ConfigCall.begun, ended]⟩
    obtain ⟨applied, finished⟩ := returned ruler present
    have applies : ruler.pc = .finished true := by
      have begun := ruling.begun
      cases applied with
      | true => exact finished
      | false => simp [ConfigCall.begun, finished] at begun
    obtain ⟨index, here⟩ := List.getElem?_of_mem present
    refine ⟨index, ruler, here, applies, ruling.inForce, ?_⟩
    intro place other there otherEnded
    have bounded := Nat.le_trans claimed.winners (Bool.toNat_le _)
    exact index_eq_of_total_le_one bounded there
      (by simp [won other (List.mem_of_getElem? there) otherEnded]) here
      (by simp [won ruler present applies])

/-- In every run in which no configuration call wins the flag or begins to
store in the middle of another one, once all of them have returned the settings
are those of one single call. -/
theorem configuration_coherent (parsed : Option Nat) (state : State α π)
    (reachable : Reachable (restrict State.inTurn State.step)
      (State.initial parsed) state)
    (returned : state.Returned) : state.Coherent := by
  have closed : ∀ (state : State α π) label next,
      restrict State.inTurn State.step state label = some next →
      Claimed state.statics.settings state.configs ∧
        Ordered state.statics.settings state.configs ∧
        Stored state.statics.settings state.configs →
      Claimed next.statics.settings next.configs ∧
        Ordered next.statics.settings next.configs ∧
        Stored next.statics.settings next.configs := by
    intro state label next taken premise
    obtain ⟨claimed, ordered, stored⟩ := premise
    obtain ⟨turn, stepped⟩ := step_of_restrict taken
    cases stateStep_of_step stepped with
    | spawn | thread | initThreadPool => exact ⟨claimed, ordered, stored⟩
    | configure once config =>
        exact ⟨claimed.configure once config, ordered.configure once config,
          stored.configure once config⟩
    | config current step delivered =>
        simp only [State.inTurn, current, Option.all_some] at turn
        have placed := claimed.placed _ (List.mem_of_getElem? current)
        exact ⟨claimed.config current step,
          ordered.config current placed turn step,
          stored.config ordered current placed turn step⟩
  obtain ⟨claimed, _, stored⟩ := reachable.invariant closed
    ⟨.initial parsed, .initial parsed, .initial parsed⟩
  exact State.coherent_of_stored claimed stored returned

/-- A call of `with_arbitration_once` runs to its end, then an override, and
then another call of `with_arbitration_once`, which is refused. -/
def configuredInTurn : List (Label Nat Unit) :=
  .configure true .disabled :: List.replicate 3 (.config 0) ++
    .configure false (.enabled 80 40) :: List.replicate 5 (.config 1) ++
    [.configure true .disabled, .config 2]

theorem configuration_coherent_configuredInTurn :
    ∃ state : State Nat Unit,
      run (restrict State.inTurn State.step) configuredInTurn
        (State.initial none) = some state ∧
      state.configs.map (·.pc) =
        [.finished true, .finished true, .finished false] ∧
      state.Coherent := by
  have passed : (run (restrict State.inTurn State.step) configuredInTurn
      (State.initial none : State Nat Unit)).any (fun state =>
        state.configs.map (·.pc) ==
          [.finished true, .finished true, .finished false]) = true := by
    decide +kernel
  obtain ⟨state, ended, facts⟩ := exists_run _ passed
  have places := beq_iff_eq.mp facts
  refine ⟨state, ended, places,
    configuration_coherent none state ⟨configuredInTurn, ended⟩ ?_⟩
  intro call member
  have place := List.mem_map_of_mem (f := (·.pc)) member
  rw [places] at place
  simp only [List.mem_cons, List.not_mem_nil, or_false] at place
  rcases place with ended | ended | ended <;> exact ⟨_, ended⟩

/-- A second override runs to its end between the first and the second store
of the first one. -/
def tornOverrides : List (Label Nat Unit) :=
  [.configure false (.enabled 10 10), .configure false (.enabled 90 90),
    .config 0] ++ List.replicate 5 (.config 1) ++ List.replicate 4 (.config 0)

/-- An override runs to its end after a call of `with_arbitration_once` has
won the flag and before that call stores. -/
def clobberedOverride : List (Label Nat Unit) :=
  [.configure true .disabled, .configure false (.enabled 80 40), .config 0] ++
    List.replicate 5 (.config 1) ++ List.replicate 2 (.config 0)

/-- All calls have returned, there was an override, and the settings are those
of no override. -/
def State.incoherent (state : State α π) : Bool :=
  state.configs.all (·.pc == .finished true) &&
    state.configs.any (!·.once) &&
    state.configs.all (fun call =>
      call.once || !decide (state.statics.settings.InForce call.config))

theorem State.not_coherent_of_incoherent {state : State α π}
    (broken : state.incoherent = true) :
    state.Returned ∧ ¬ state.Coherent := by
  simp only [State.incoherent, Bool.and_eq_true, List.all_eq_true,
    List.any_eq_true, beq_iff_eq, Bool.not_eq_eq_eq_not, Bool.not_true,
    Bool.or_eq_true, decide_eq_false_iff_not] at broken
  obtain ⟨⟨ended, explicit⟩, foreign⟩ := broken
  refine ⟨fun call member => ⟨true, ended call member⟩, ?_⟩
  intro coherent
  obtain ⟨call, member, once, inForce⟩ := coherent.explicit explicit
  rcases foreign call member with other | not
  · rw [once] at other
    cases other
  · exact not inForce

theorem configuration_torn_or_clobbered :
    (∃ state : State Nat Unit,
      run State.step tornOverrides (State.initial none) = some state ∧
      state.Returned ∧ ¬ state.Coherent) ∧
    (∃ state : State Nat Unit,
      run State.step clobberedOverride (State.initial none) = some state ∧
      state.Returned ∧ ¬ state.Coherent) := by
  have torn : (run State.step tornOverrides
      (State.initial none : State Nat Unit)).any State.incoherent = true := by
    decide +kernel
  have clobbered : (run State.step clobberedOverride
      (State.initial none : State Nat Unit)).any State.incoherent = true := by
    decide +kernel
  constructor
  · obtain ⟨state, ended, broken⟩ := exists_run _ torn
    exact ⟨state, ended, State.not_coherent_of_incoherent broken⟩
  · obtain ⟨state, ended, broken⟩ := exists_run _ clobbered
    exact ⟨state, ended, State.not_coherent_of_incoherent broken⟩

end HoprUtilities.Parallelize
