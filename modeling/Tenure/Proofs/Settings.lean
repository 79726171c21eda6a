import Tenure.Proofs.Fallible
import Tenure.Proofs.Settings.Values

/-!
# Settings are read field by field

Settings can be read if and only if every variable is unset or valid. Each field is then what its own
variable says, or its default, and depends on no other variable. If a variable is invalid, the first
one is reported with its text as given, whatever comes after it (`Settings.read_fieldwise`).

Values aside, to read the settings is to check one variable after the other
(`Settings.map_ofLookup`), so the error is that of the first check that fails
(`forM_eq_error_iff`).
-/

namespace Tenure

/-! ## Variables -/

/-- The variables from which settings are read. -/
inductive Variable where
  /-- how long to wait for locks -/
  | lockWait
  /-- how long a hold lasts -/
  | holdTimeout
  /-- how long the reaper sleeps -/
  | reaperIdle
  /-- who may confirm and cancel -/
  | policy
  /-- the limiter of endpoints without their own -/
  | limiter
  /-- where metrics are served -/
  | port
  deriving DecidableEq

namespace Variable

/-- Its name. -/
def name : Variable → String
  | lockWait => "ALLOT_LOCK_WAIT_MS"
  | holdTimeout => "ALLOT_HOLD_TIMEOUT_MS"
  | reaperIdle => "ALLOT_REAPER_IDLE_MS"
  | policy => "ALLOT_HOLDER_POLICY"
  | limiter => "ALLOT_DEFAULT_LIMITER"
  | port => "ALLOT_METRICS_PORT"

/-- All of them, in the order in which they are read. -/
def all : List Variable := [lockWait, holdTimeout, reaperIdle, policy, limiter, port]

/-- Whether a text is a value for it. -/
def Valid (lib : Json.Library) (t : String) : Variable → Prop
  | lockWait => ∃ n, Settings.MillisText t n
  | holdTimeout => ∃ n, Settings.MillisText t n
  | reaperIdle => ∃ n, Settings.MillisText t n
  | policy => ∃ p, Settings.PolicyText t p
  | limiter => ∃ c, Settings.LimiterText lib t c
  | port => ∃ p, Settings.PortText t p

/-- Whether it is unset or valid. -/
def Fine (lib : Json.Library) (lookup : String → Option String) (v : Variable) : Prop :=
  ∀ t, lookup v.name = some t → v.Valid lib t

/-- The reader of its values, without the value. -/
def read (lib : Json.Library) (t : String) : Variable → Except String Unit
  | lockWait => (Settings.readMillis t).map fun _ => ()
  | holdTimeout => (Settings.readMillis t).map fun _ => ()
  | reaperIdle => (Settings.readMillis t).map fun _ => ()
  | policy => (Settings.readPolicy t).map fun _ => ()
  | limiter => (Settings.readLimiter lib t).map fun _ => ()
  | port => (Settings.readPort t).map fun _ => ()

variable {lib : Json.Library} {lookup : String → Option String} {v : Variable} {t : String}

theorem read_eq_ok_iff : v.read lib t = .ok () ↔ v.Valid lib t := by
  cases v with
  | lockWait | holdTimeout | reaperIdle =>
    exact map_unit_eq_ok_iff.trans (exists_congr fun n => Settings.readMillis_eq_ok_iff)
  | policy => exact map_unit_eq_ok_iff.trans (exists_congr fun p => Settings.readPolicy_eq_ok_iff)
  | limiter => exact map_unit_eq_ok_iff.trans (exists_congr fun c => Settings.readLimiter_eq_ok_iff)
  | port => exact map_unit_eq_ok_iff.trans (exists_congr fun p => Settings.readPort_eq_ok_iff)

/-- The check of it. -/
def check (lib : Json.Library) (lookup : String → Option String) (v : Variable) :
    Except SettingsError Unit :=
  Settings.setting lookup v.name (fun t => v.read lib t) ()

theorem check_eq_ok_iff : v.check lib lookup = .ok () ↔ v.Fine lib lookup := by
  rw [check, Settings.setting, Fine]
  cases lookup v.name with
  | none => simp
  | some t =>
    simp only [Option.some_inj, forall_eq', ← read_eq_ok_iff]
    cases v.read lib t <;> simp

/-- A check fails with the name and the text of the variable. -/
theorem of_check_eq_error {e : SettingsError} (failed : v.check lib lookup = .error e) :
    e.var = v.name ∧ lookup v.name = some e.value ∧ ¬ v.Valid lib e.value := by
  rw [check, Settings.setting] at failed
  cases found : lookup v.name with
  | none =>
    rw [found] at failed
    cases failed
  | some t =>
    simp only [found] at failed
    have invalid : ¬ v.read lib t = .ok () → ¬ v.Valid lib t := mt read_eq_ok_iff.2
    cases read : v.read lib t with
    | ok u =>
      rw [read] at failed
      cases failed
    | error reason =>
      rw [read] at failed invalid
      cases failed
      exact ⟨rfl, rfl, invalid nofun⟩

end Variable

namespace Settings

variable {lib : Json.Library} {lookup : String → Option String} {s : Settings}

/-! ## Reading -/

/-- Whether `a` is what the variable tells, which is the default if it is unset. -/
def Tells {α : Type} (lookup : String → Option String) (v : Variable) (text : String → α → Prop)
    (default a : α) : Prop :=
  match lookup v.name with
  | none => a = default
  | some t => text t a

theorem setting_eq_ok_iff {α : Type} {read : String → Except String α} {text : String → α → Prop}
    (exact : ∀ {t a}, read t = .ok a ↔ text t a) {v : Variable} {default a : α} :
    setting lookup v.name read default = .ok a ↔ Tells lookup v text default a := by
  rw [setting, Tells]
  cases lookup v.name with
  | none => simp [eq_comm]
  | some t =>
    simp only [← exact]
    cases read t <;> simp

/-- **Every field is read from its own variable.** -/
theorem ofLookup_eq_ok_iff :
    ofLookup lib lookup = .ok s ↔
      Tells lookup .lockWait MillisText 1000 s.coordinator.lockWait ∧
      Tells lookup .holdTimeout MillisText 300000 s.coordinator.holdTimeout ∧
      Tells lookup .reaperIdle MillisText 5000 s.coordinator.reaperIdle ∧
      Tells lookup .policy PolicyText .strict s.coordinator.policy ∧
      Tells lookup .limiter (LimiterText lib) (.tokenBucket 5 2.0) s.defaultLimiter ∧
      Tells lookup .port PortText none s.metricsPort := by
  rw [← setting_eq_ok_iff readMillis_eq_ok_iff, ← setting_eq_ok_iff readMillis_eq_ok_iff,
    ← setting_eq_ok_iff readMillis_eq_ok_iff, ← setting_eq_ok_iff readPolicy_eq_ok_iff,
    ← setting_eq_ok_iff readLimiter_eq_ok_iff, ← setting_eq_ok_iff readPort_eq_ok_iff]
  simp only [ofLookup, bind_eq_ok_iff]
  constructor
  · rintro ⟨lockWait, h₁, holdTimeout, h₂, reaperIdle, h₃, policy, h₄, limiter, h₅, port, h₆, h⟩
    cases h
    exact ⟨h₁, h₂, h₃, h₄, h₅, h₆⟩
  · rintro ⟨h₁, h₂, h₃, h₄, h₅, h₆⟩
    exact ⟨_, h₁, _, h₂, _, h₃, _, h₄, _, h₅, _, h₆, rfl⟩

theorem map_setting {α : Type} (var : String) (read : String → Except String α) (default : α) :
    (setting lookup var read default).map (fun _ => ()) =
      setting lookup var (fun t => (read t).map fun _ => ()) () := by
  rw [setting, setting]
  cases lookup var with
  | none => rfl
  | some t => cases h : read t <;> simp [Except.map, h]

/-- **Values aside, reading is checking** one variable after the other. -/
theorem map_ofLookup (lib : Json.Library) (lookup : String → Option String) :
    (ofLookup lib lookup).map (fun _ => ()) = forM Variable.all (Variable.check lib lookup) := by
  simp only [Variable.all, List.forM_cons, List.forM_nil]
  exact map_bind (map_setting ..) fun lockWait => map_bind (map_setting ..) fun holdTimeout =>
    map_bind (map_setting ..) fun reaperIdle => map_bind (map_setting ..) fun policy =>
    map_bind (map_setting ..) fun limiter => map_bind (map_setting ..) fun port => rfl

/-- The first variable that is not fine is reported with its text. -/
theorem exists_of_ofLookup_eq_error {e : SettingsError} (failed : ofLookup lib lookup = .error e) :
    ∃ before v after, Variable.all = before ++ v :: after ∧ e.var = v.name ∧
      lookup v.name = some e.value ∧ ¬ v.Valid lib e.value ∧ ∀ w ∈ before, w.Fine lib lookup := by
  have checks := map_ofLookup lib lookup
  rw [failed] at checks
  obtain ⟨before, v, after, split, own, passed⟩ := forM_eq_error_iff.1 checks.symm
  obtain ⟨var, found, invalid⟩ := Variable.of_check_eq_error own
  exact ⟨before, v, after, split, var, found, invalid,
    fun w hw => Variable.check_eq_ok_iff.1 (passed w hw)⟩

/-- What a field is read from is fine. -/
theorem Tells.fine {α : Type} {v : Variable} {text : String → α → Prop} {default a : α}
    (valid : ∀ {t a}, text t a → v.Valid lib t) (own : Tells lookup v text default a) :
    v.Fine lib lookup := by
  intro t found
  rw [Tells, found] at own
  exact valid own

theorem fine_of_ofLookup_eq_ok (read : ofLookup lib lookup = .ok s) (v : Variable) :
    v.Fine lib lookup := by
  obtain ⟨h₁, h₂, h₃, h₄, h₅, h₆⟩ := ofLookup_eq_ok_iff.1 read
  cases v with
  | lockWait => exact h₁.fine fun own => ⟨_, own⟩
  | holdTimeout => exact h₂.fine fun own => ⟨_, own⟩
  | reaperIdle => exact h₃.fine fun own => ⟨_, own⟩
  | policy => exact h₄.fine fun own => ⟨_, own⟩
  | limiter => exact h₅.fine fun own => ⟨_, own⟩
  | port => exact h₆.fine fun own => ⟨_, own⟩

/-- **Settings are read field by field,** whatever the library that reads the limiter. They can be read
if and only if each of the six variables is unset or valid. Each field is then what its own variable
says, or its default if that is unset, and these six conditions determine the settings. Otherwise the error has the name of the first
invalid variable, in the order lock wait, hold timeout, reaper's sleep, policy, limiter, port, and
its text as given, whatever the later ones contain. -/
theorem read_fieldwise (lib : Json.Library) (lookup : String → Option String) :
    ((∃ s, ofLookup lib lookup = .ok s) ↔ ∀ v : Variable, v.Fine lib lookup) ∧
    (∀ s, ofLookup lib lookup = .ok s ↔
      Tells lookup .lockWait MillisText 1000 s.coordinator.lockWait ∧
      Tells lookup .holdTimeout MillisText 300000 s.coordinator.holdTimeout ∧
      Tells lookup .reaperIdle MillisText 5000 s.coordinator.reaperIdle ∧
      Tells lookup .policy PolicyText .strict s.coordinator.policy ∧
      Tells lookup .limiter (LimiterText lib) (.tokenBucket 5 2.0) s.defaultLimiter ∧
      Tells lookup .port PortText none s.metricsPort) ∧
    ∀ e, ofLookup lib lookup = .error e →
      ∃ before v after, Variable.all = before ++ v :: after ∧ e.var = v.name ∧
        lookup v.name = some e.value ∧ ¬ v.Valid lib e.value ∧ ∀ w ∈ before, w.Fine lib lookup := by
  refine ⟨⟨fun ⟨s, read⟩ => fine_of_ofLookup_eq_ok read, fun fine => ?_⟩,
    fun s => ofLookup_eq_ok_iff, fun e => exists_of_ofLookup_eq_error⟩
  cases read : ofLookup lib lookup with
  | ok s => exact ⟨s, rfl⟩
  | error e =>
    obtain ⟨-, v, -, -, -, found, invalid, -⟩ := exists_of_ofLookup_eq_error read
    exact absurd (fine v _ found) invalid

end Settings

end Tenure
