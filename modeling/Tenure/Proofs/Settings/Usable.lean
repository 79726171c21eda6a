import Tenure.Admission.Controller
import Tenure.Json.Reader
import Tenure.Proofs.Reaping
import Tenure.Proofs.Settings

/-!
# Accepted settings can be used

Settings that are read without an error contain a limiter that can be built, since it is checked for
the very faults for which it would be refused later (`Settings.sound_of_ofLookup_eq_ok`), and a hold
timeout of at least a millisecond (`Settings.one_le_of_ofLookup_eq_ok`).

Nothing checks that the timeout is not too long. Up to `maxHoldMillis` a hold for the default time is
granted on every available resource whose lock is free; above it every such request is refused,
whatever the resource (`Settings.accepted_usable`).
-/

namespace Tenure

/-- A configuration without a fault is one from which a controller can be made. -/
theorem Controller.exists_ofConfig {c : LimiterConfig} (sound : c.Sound) :
    ∃ controller, ofConfig c = .ok controller := by
  have faultless := LimiterConfig.fault?_eq_none_iff.2 sound
  exact ⟨new c.limiter, by simp only [ofConfig, LimiterConfig.build, faultless]⟩

/-! ## Holds for the default time -/

namespace Ledger

variable {l : Ledger} {ls : Locks} {m : Moment} {id : Id} {r : Resource}

/-- **An available resource whose lock is free** is decided on at once. -/
theorem run_placeHold (owner : Owner) (known : l.resources.get? id = some r)
    (available : r.statusAt m.stamp = .available) (free : ls.get (.resource id) = Lock.free)
    (s : CoordinatorSettings) (holder : String) (millis : Nat) (price : Float → Float) :
    ∃ ls', (placeHold s id holder millis price).run owner m l ls =
        (.returned ((l.count .lockWait).place m.stamp id holder millis price).1,
          ((l.count .lockWait).place m.stamp id holder millis price).2, ls') ∧
      ∀ key, ls'.get key = ls.get key := by
  have yes : l.resources.contains id = true := by rw [Table.contains_eq_isSome, known]; rfl
  have peek : (ls.get (.resource id)).ready .shared = true := by rw [free]; rfl
  obtain ⟨ls', run, same⟩ := run_underLock (l := l) (m := m) owner (m.elapsed + s.lockWait)
    (do
      Call.modify fun l => l.count (.reservations "timeout")
      return .ok (.denied (.contended id)))
    (fun now l => l.place now id holder millis price) free
  refine ⟨ls', ?_, same⟩
  rw [← run]
  simp [placeHold, peekStatus, Call.gets, Call.couldLock, Call.bind, Call.run, yes, peek,
    known, available, lockDue, Call.moment]

/-- It is granted. -/
theorem exists_run_placeHold (owner : Owner) (known : l.resources.get? id = some r)
    (available : r.statusAt m.stamp = .available) (free : ls.get (.resource id) = Lock.free)
    (s : CoordinatorSettings) (holder : String) (millis : Nat) (price : Float → Float) :
    let h := holdOn (r.settled m.stamp) m.stamp id holder millis price
    ∃ l' ls', (placeHold s id holder millis price).run owner m l ls =
        (.returned (.ok (.granted h)), l', ls') ∧
      l'.resources.get? id = some (held (r.settled m.stamp) h) ∧ ∀ key, ls'.get key = ls.get key := by
  obtain ⟨ls', run, same⟩ := run_placeHold owner known available free s holder millis price
  obtain ⟨unknown, -⟩ | ⟨r', known', counts, taken, -⟩ | ⟨r', known', -, placed⟩ :=
    (l.count .lockWait).place_cases m.stamp id holder millis price
  · cases known.symm.trans unknown
  · cases known.symm.trans known'
    exact absurd (counts.symm.trans available) taken
  · cases known.symm.trans known'
    rw [placed] at run
    refine ⟨_, ls', run, ?_, same⟩
    refine (get?_turn _ id id true _).trans ?_
    rw [if_pos rfl, get?_settle_self, known', Option.map_some, Option.map_some]

/-- A hold for the default time is one for as many milliseconds as are set, if these are in order. -/
theorem reserveDefault_eq {s : CoordinatorSettings} {holder : String}
    (named : holderFault? holder = none) (price : Float → Float) :
    reserveDefault s id holder price =
      match holdFault? s.holdTimeout with
      | some fault => .done (.error (.limitExceeded fault))
      | none => placeHold s id holder s.holdTimeout price := by
  have millis : s.holdTimeout * 1000000 / 1000000 = s.holdTimeout :=
    Nat.mul_div_cancel _ (by decide)
  rw [reserveDefault, reserve, millis, named]
  cases holdFault? s.holdTimeout <;> rfl

end Ledger

namespace Settings

variable {lib : Json.Library} {lookup : String → Option String} {s : Settings}

/-! ## What is checked -/

/-- What holds of the default and of every valid text holds of what is told. -/
theorem Tells.of_forall {α : Type} {v : Variable} {text : String → α → Prop} {default a : α}
    {P : α → Prop} (own : Tells lookup v text default a) (start : P default)
    (valid : ∀ t, text t a → P a) : P a := by
  rw [Tells] at own
  split at own
  · exact own ▸ start
  · next t _ => exact valid t own

/-- The limiter that is read is sound. -/
theorem sound_of_ofLookup_eq_ok (read : ofLookup lib lookup = .ok s) : s.defaultLimiter.Sound := by
  obtain ⟨-, -, -, -, limiter, -⟩ := ofLookup_eq_ok_iff.1 read
  exact limiter.of_forall (LimiterConfig.fault?_eq_none_iff.1 (by decide +kernel)) fun _ own => own.2

/-- The hold timeout that is read is not too short. -/
theorem one_le_of_ofLookup_eq_ok (read : ofLookup lib lookup = .ok s) :
    1 ≤ s.coordinator.holdTimeout := by
  obtain ⟨-, timeout, -⟩ := ofLookup_eq_ok_iff.1 read
  exact timeout.of_forall (P := fun n => 1 ≤ n) (by decide) fun _ own => own.2.1

/-- So the one thing that can be wrong with it is that it is too long. -/
theorem holdFault?_holdTimeout (read : ofLookup lib lookup = .ok s) :
    holdFault? s.coordinator.holdTimeout =
      if maxHoldMillis < s.coordinator.holdTimeout then some .holdTooLong else none := by
  rw [holdFault?, if_neg (Nat.not_lt.2 (one_le_of_ofLookup_eq_ok read))]

/-! ## What can be done with them -/

/-- **Accepted settings can be used.** A controller can be made from the default limiter. On every
resource that is available and whose lock is free, whoever asks by a name in order is granted a hold
for the default time, if that is no longer than a hold may be. If it is longer, which nothing
prevents, everybody is refused and nothing happens. -/
theorem accepted_usable (read : ofLookup lib lookup = .ok s) :
    (∃ controller, Controller.ofConfig s.defaultLimiter = .ok controller) ∧
    ∀ (l : Ledger) (ls : Locks) (m : Moment) (id : Id) (r : Resource) (holder : String),
      l.resources.get? id = some r → r.statusAt m.stamp = .available →
      ls.get (.resource id) = Lock.free → holderFault? holder = none →
      ∀ (owner : Owner) (price : Float → Float),
        (s.coordinator.holdTimeout ≤ maxHoldMillis →
          let h := Ledger.holdOn (r.settled m.stamp) m.stamp id holder s.coordinator.holdTimeout price
          ∃ l' ls', (Ledger.reserveDefault s.coordinator id holder price).run owner m l ls =
              (.returned (.ok (.granted h)), l', ls') ∧
            l'.resources.get? id = some (Ledger.held (r.settled m.stamp) h) ∧
            ∀ key, ls'.get key = ls.get key) ∧
        (maxHoldMillis < s.coordinator.holdTimeout →
          (Ledger.reserveDefault s.coordinator id holder price).run owner m l ls =
            (.returned (.error (.limitExceeded .holdTooLong)), l, ls)) := by
  refine ⟨Controller.exists_ofConfig (sound_of_ofLookup_eq_ok read), ?_⟩
  intro l ls m id r holder known available free named owner price
  rw [Ledger.reserveDefault_eq named, holdFault?_holdTimeout read]
  constructor
  · intro short
    rw [if_neg (Nat.not_lt.2 short)]
    exact Ledger.exists_run_placeHold owner known available free _ holder _ price
  · intro long
    rw [if_pos long]
    rfl

/-- So it is with a timeout of a week, the longest there may be. -/
theorem accepted_usable_for_a_week :
    ∃ s, ofLookup Json.library (fun name =>
        if name = "ALLOT_HOLD_TIMEOUT_MS" then some "604800000" else none) = .ok s ∧
      s.coordinator.holdTimeout = maxHoldMillis ∧
      (∃ controller, Controller.ofConfig s.defaultLimiter = .ok controller) ∧
      ∃ h l' ls', (Ledger.reserveDefault s.coordinator ⟨0, 1⟩ "Ann" id).run 0 ⟨0, 0⟩
          Ledger.hallOfTwo Locks.empty = (.returned (.ok (.granted h)), l', ls') ∧
        h.deadline = 604800000 ∧
        (l'.resources.get? ⟨0, 1⟩).map Resource.holder = some (some "Ann") := by
  let s : Settings := { Settings.standard with
    coordinator := { CoordinatorSettings.standard with holdTimeout := 604800000 } }
  have read : ofLookup Json.library (fun name =>
      if name = "ALLOT_HOLD_TIMEOUT_MS" then some "604800000" else none) = .ok s := by
    rfl
  obtain ⟨limiter, holds⟩ := accepted_usable read
  obtain ⟨short, -⟩ := holds Ledger.hallOfTwo Locks.empty ⟨0, 0⟩ ⟨0, 1⟩ _ "Ann" rfl (by decide) rfl
    (by decide) 0 id
  obtain ⟨l', ls', run, found, -⟩ := short (Nat.le_refl _)
  refine ⟨s, read, rfl, limiter, _, l', ls', run, by decide, ?_⟩
  rw [found]
  rfl

/-- A millisecond more is accepted as well, and then Ann is refused a free seat. -/
theorem accepted_too_long :
    ∃ s, ofLookup Json.library (fun name =>
        if name = "ALLOT_HOLD_TIMEOUT_MS" then some "604800001" else none) = .ok s ∧
      (Ledger.hallOfTwo.resources.get? ⟨0, 1⟩).map (fun r => r.statusAt 0) = some .available ∧
      Locks.empty.get (.resource ⟨0, 1⟩) = Lock.free ∧
      holderFault? "Ann" = none ∧
      (Ledger.reserveDefault s.coordinator ⟨0, 1⟩ "Ann" id).run 0 ⟨0, 0⟩ Ledger.hallOfTwo
        Locks.empty = (.returned (.error (.limitExceeded .holdTooLong)), Ledger.hallOfTwo,
          Locks.empty) :=
  ⟨{ Settings.standard with
      coordinator := { CoordinatorSettings.standard with holdTimeout := 604800001 } },
    rfl, by decide, rfl, by decide, rfl⟩

end Settings

end Tenure
