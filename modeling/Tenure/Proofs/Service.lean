import Tenure.Proofs.Histories
import Tenure.Proofs.Service.Grouping
import Tenure.Proofs.Service.Holding
import Tenure.Proofs.Service.Lapsing

/-!
# How requests are served

**Requests are decided in one stretch.** Whatever a request has waited for before, it is
decided in the stretch in which it is answered, on the ledger as that stretch found it, and
just as `Request.atOnce` would; or it comes too late for a lock and nothing is done. In all
its other stretches it only counts (`Errand.keeps`). Chores do nothing but upkeep, in any of
their stretches (`Chore.keeps`).

So along every history of parties each move does one of four things to the ledger: nothing
but counting, upkeep, one request decided at once, or one request turned away late.
-/

namespace Tenure

variable {s : CoordinatorSettings} {m : Moment} {l l' l₀ : Ledger} {held : List Key}

/-- How the ledger changes in the stretch in which a request is answered. -/
def Request.Serves (s : CoordinatorSettings) (r : Request) (now : Int) (l l' : Ledger)
    (a : Answer) : Prop :=
  (a.late = true ∧ l.Quiet l') ∨ Ledger.Quietly (r.atOnce s now l) (a, l')

/-- A call that is decided on at one moment serves the request that is decided on like that. -/
theorem Ledger.Decided.serves {α : Type} {answer : α → Answer} {f : Int → Ledger → α × Ledger}
    {r : Request} {a : α} (h : Ledger.Decided answer f m l l' a)
    (same : r.atOnce s m.stamp l = (answer (f m.stamp l).1, (f m.stamp l).2)) :
    r.Serves s m.stamp l l' (answer a) := by
  rcases h with late | ⟨answered, done⟩
  · exact .inl late
  · exact .inr ⟨by rw [same]; exact congrArg answer answered, by rw [same]; exact done⟩

/-- **Requests are decided in one stretch**, the one in which they are answered. -/
theorem Request.meets_call (s : CoordinatorSettings) (r : Request) (h : Ledger.Waited m l₀ l) :
    (r.call s).Meets Ledger.conduct (fun _ => Ledger.Quiet)
      (fun _ m l₀ l a => r.Serves s m.stamp l₀ l a) held m l₀ l := by
  cases r with
  | reserve id holder duration price =>
    exact Call.meets_bind.2 ((Ledger.meets_reserve s id holder duration price h).mono
      (fun _ _ _ w => w) fun _ _ _ _ _ d => d.serves rfl)
  | reserveDefault id holder price =>
    exact Call.meets_bind.2 ((Ledger.meets_reserve s id holder _ price h).mono
      (fun _ _ _ w => w) fun _ _ _ _ _ d => d.serves rfl)
  | confirm id holder =>
    exact Call.meets_bind.2 ((Ledger.meets_confirmHold s id holder h).mono
      (fun _ _ _ w => w) fun _ _ _ _ _ d => d.serves rfl)
  | cancel id holder =>
    exact Call.meets_bind.2 ((Ledger.meets_cancelHold s id holder h).mono
      (fun _ _ _ w => w) fun _ _ _ _ _ d => d.serves rfl)
  | book group holder ids price =>
    exact Call.meets_bind.2 ((Ledger.meets_bookGroup s group holder ids price h).mono
      (fun _ _ _ w => w) fun _ _ _ _ _ d => d.serves rfl)
  | bookByName group holder names price =>
    exact Call.meets_bind.2 ((Ledger.meets_bookByName s group holder names price h).mono
      (fun _ _ _ w => w) fun _ _ _ _ _ d => d.serves rfl)
  | cancelGroup booking holder =>
    exact Call.meets_bind.2 ((Ledger.meets_cancelGroup s booking holder h).mono
      (fun _ _ _ w => w) fun _ _ _ _ _ d => d.serves rfl)

/-- How the ledger changes in the stretch in which an errand gets its reply. -/
def Reply.Tells (s : CoordinatorSettings) (m : Moment) (l l' : Ledger) : Reply → Prop
  | .answered r a => r.Serves s m.stamp l l' a
  | .looked => l.Quiet l'
  | _ => False

/-- Whether it is the reply to a chore. -/
def Reply.ofChore : Reply → Prop
  | .swept _ => True
  | .expired _ => True
  | .round _ => True
  | _ => False

/-- How the ledger changes in the stretch in which a party gets a reply, the replies to errands
and to chores told apart. -/
def Reply.DoesApart (s : CoordinatorSettings) (m : Moment) (l l' : Ledger) (a : Reply) : Prop :=
  a.Tells s m l l' ∨ (a.ofChore ∧ Ledger.Upkeep m l l')

/-- How the ledger changes in the stretch in which a party gets a reply. -/
def Reply.Does (s : CoordinatorSettings) (m : Moment) (l l' : Ledger) (a : Reply) : Prop :=
  a.Tells s m l l' ∨ Ledger.Upkeep m l l'

/-- Errands only count until they are answered. -/
theorem Errand.keeps {c : Call Ledger Reply} (h : Errand s c) :
    c.Keeps Ledger.conduct (fun _ => Ledger.Quiet) fun m l l' a => a.Tells s m l l' := by
  intro m l ord
  cases h with
  | request r => exact Call.meets_bind.2 (r.meets_call s ⟨.refl l, ord, trivial⟩)
  | look c idle =>
    exact Call.meets_bind.2 (idle.meets (fun _ => .refl) (fun _ _ _ _ _ _ => .refl _) ord)

/-- Chores do nothing but upkeep, and their replies are their own. -/
theorem Chore.keepsApart {c : Call Ledger Reply} (h : Chore s c) :
    c.Keeps Ledger.conduct Ledger.Upkeep fun m l l' a => a.ofChore ∧ Ledger.Upkeep m l l' := by
  intro m l ord
  have start : Ledger.Busy m l l := ⟨.none, ord, trivial⟩
  cases h with
  | sweep =>
    exact Call.meets_bind.2 ((Ledger.meets_sweep Ledger.sweeping_upkeep ord).mono
      (fun _ _ _ w => w) fun _ _ _ _ _ upkeep => ⟨trivial, upkeep⟩)
  | expiry id generation =>
    exact Call.meets_bind.2 ((Ledger.meets_expireHold s id generation start).mono
      (fun _ _ _ w => w) fun _ _ _ _ _ onward => ⟨trivial, onward.2.did⟩)
  | reaper =>
    exact Call.meets_bind.2 ((Ledger.meets_reaperRound s start).mono (fun _ _ _ w => w)
      fun _ _ _ _ _ onward => ⟨trivial, onward.2.did⟩)

/-- Chores do nothing but upkeep. -/
theorem Chore.keeps {c : Call Ledger Reply} (h : Chore s c) :
    c.Keeps Ledger.conduct Ledger.Upkeep fun m l l' _ => Ledger.Upkeep m l l' :=
  fun m l ord => (h.keepsApart m l ord).mono (fun _ _ _ w => w) fun _ _ _ _ _ did => did.2

/-- **Every client** keeps to the rules, and its answers tell what it has done. -/
theorem Client.keepsTo {call : Call Ledger Reply} {again : Reply → Option (Call Ledger Reply)}
    (h : Client s call again) :
    KeepsTo Ledger.conduct (fun _ => Ledger.Quiet) (fun m l l' a => a.Tells s m l l') call again :=
  ⟨h.1.keeps, fun a c hc => (h.2 a c hc).keeps⟩

/-- **Every party** keeps to the rules; the reaper and the sweeps do no more than upkeep. -/
theorem Party.keepsToApart {call : Call Ledger Reply} {again : Reply → Option (Call Ledger Reply)}
    (h : Party s call again) :
    KeepsTo Ledger.conduct Ledger.Upkeep (fun m l l' a => a.DoesApart s m l l') call again := by
  have keeps : ∀ {c}, Errand s c ∨ Chore s c →
      c.Keeps Ledger.conduct Ledger.Upkeep fun m l l' a => a.DoesApart s m l l' := by
    rintro c (errand | chore)
    · exact fun m l ord => (errand.keeps m l ord).mono (fun _ _ _ quiet => quiet.upkeep)
        fun _ _ _ _ _ tells => .inl tells
    · exact fun m l ord => (chore.keepsApart m l ord).mono (fun _ _ _ upkeep => upkeep)
        fun _ _ _ _ _ did => .inr did
  exact ⟨keeps h.1, fun a c hc => keeps (h.2 a c hc)⟩

theorem Reply.DoesApart.does {a : Reply} (h : a.DoesApart s m l l') : a.Does s m l l' :=
  h.imp_right fun did => did.2

/-- So do all parties, if nobody asks which of them did what. -/
theorem Party.keepsTo {call : Call Ledger Reply} {again : Reply → Option (Call Ledger Reply)}
    (h : Party s call again) :
    KeepsTo Ledger.conduct Ledger.Upkeep (fun m l l' a => a.Does s m l l') call again := by
  have less : ∀ {c : Call Ledger Reply},
      c.Keeps Ledger.conduct Ledger.Upkeep (fun m l l' a => a.DoesApart s m l l') →
      c.Keeps Ledger.conduct Ledger.Upkeep fun m l l' a => a.Does s m l l' :=
    fun keeps m l ord => (keeps m l ord).mono (fun _ _ _ w => w) fun _ _ _ _ _ did => did.does
  exact ⟨less h.keepsToApart.first, fun a c hc => less (h.keepsToApart.next a c hc)⟩

end Tenure
