import Depot.Site.State
import Mathlib

/-!
# What operations lead to

An operation of a depot fails or gives an answer, and changes the site in either case. `Act.Leads` says
both at once: where an operation ends if it fails, and where it ends with its answer. It goes through a
sequence of operations from the first to the last (`leads_bind`), and what an operation leads to may be
weakened at its end (`Leads.mono`), so an operation is taken apart into its calls, and of each call only
what was proved of it is used.
-/

namespace Depot.Act

variable {α β : Type}

/-- The site after an operation, whether it failed or not. -/
def after (x : Act α) (s : Site) : Site := (x.run.run s).2

/-- What an operation answers. -/
def answer (x : Act α) (s : Site) : Except Failure α := (x.run.run s).1

/-- **Where an operation leads**: begun at a site it fails as `E` says, or it gives an answer as `Q`
says. -/
def Leads (x : Act α) (E : Failure → Site → Prop) (Q : α → Site → Prop) (s : Site) : Prop :=
  match x.run.run s with
  | (.ok a, s') => Q a s'
  | (.error e, s') => E e s'

variable {E E' : Failure → Site → Prop} {Q Q' : α → Site → Prop} {s : Site}

/-! ### Single operations -/

@[simp] theorem leads_pure {a : α} : Leads (pure a) E Q = Q a := rfl

@[simp] theorem leads_throw {e : Failure} : Leads (throw e) E Q = E e := rfl

theorem leads_ok {a : α} : Leads (ExceptT.mk (pure (.ok a))) E Q = Q a := rfl

theorem leads_error {e : Failure} : Leads (ExceptT.mk (pure (.error e))) E Q = E e := rfl

@[simp] theorem leads_get {Q : Site → Site → Prop} : Leads get E Q = fun s => Q s s := rfl

@[simp] theorem leads_modify {f : Site → Site} {Q : Unit → Site → Prop} :
    Leads (modify f) E Q = fun s => Q () (f s) := rfl

@[simp] theorem leads_set {s' : Site} {Q : Unit → Site → Prop} :
    Leads (set s') E Q = fun _ => Q () s' := rfl

@[simp] theorem leads_now {Q : Time.Instant → Site → Prop} :
    Leads now E Q = fun s => Q s.clock.now s := rfl

@[simp] theorem leads_note {h : Happening} {Q : Unit → Site → Prop} :
    Leads (note h) E Q = fun s => Q () { s with log := s.log ++ [h] } := rfl

@[simp] theorem leads_join {t : Task} {Q : Unit → Site → Prop} :
    Leads (join t) E Q = fun s => Q () { s with tasks := s.tasks ++ [t] } := rfl

/-! ### Sequences -/

@[simp] theorem leads_bind {x : Act β} {f : β → Act α} :
    Leads (x >>= f) E Q = Leads x E fun b => Leads (f b) E Q := by
  funext s
  unfold Leads
  rw [ExceptT.run_bind, StateT.run_bind]
  rcases x.run.run s with ⟨_ | _, s'⟩ <;> rfl

@[simp] theorem leads_attempt {x : Act β} {Q : Except Failure β → Site → Prop} :
    Leads (attempt x) E Q = Leads x (fun e => Q (.error e)) (fun b => Q (.ok b)) := by
  funext s
  unfold Leads
  rw [attempt, ExceptT.run_mk, StateT.run_bind]
  rcases x.run.run s with ⟨_ | _, s'⟩ <;> rfl

@[simp] theorem leads_forgive {x : Act β} {Q : Unit → Site → Prop} :
    Leads (forgive x) E Q = Leads x (fun _ => Q ()) (fun _ => Q ()) := by
  simp only [forgive, leads_bind, leads_attempt, leads_pure]

/-- Where a choice leads. -/
theorem leads_ite {b : Bool} {x y : Act α} :
    Leads (if b = true then x else y) E Q s ↔
      (b = true → Leads x E Q s) ∧ (b = false → Leads y E Q s) := by
  cases b <;> simp

/-! ### Weakening -/

/-- Where an operation leads may be said less exactly. -/
theorem Leads.mono {x : Act α} (h : Leads x E Q s) (hE : ∀ e s', E e s' → E' e s')
    (hQ : ∀ a s', Q a s' → Q' a s') : Leads x E' Q' s := by
  revert h
  unfold Leads
  rcases x.run.run s with ⟨e | a, s'⟩
  · exact hE e s'
  · exact hQ a s'

/-- Where an operation leads may be said in two parts. -/
theorem Leads.and {x : Act α} (h : Leads x E Q s) (h' : Leads x E' Q' s) :
    Leads x (fun e s' => E e s' ∧ E' e s') (fun a s' => Q a s' ∧ Q' a s') s := by
  revert h h'
  unfold Leads
  rcases x.run.run s with ⟨e | a, s'⟩ <;> exact And.intro

/-- What is said of both ends holds of the site afterwards. -/
theorem Leads.after {x : Act α} {P : Site → Prop} (h : Leads x (fun _ => P) (fun _ => P) s) :
    P (x.after s) := by
  revert h
  unfold Leads Act.after
  rcases x.run.run s with ⟨e | a, s'⟩ <;> exact id

/-- An operation leads to its answer and to the site afterwards. -/
theorem leads_answer (x : Act α) (s : Site) :
    Leads x (fun e s' => x.answer s = .error e ∧ s' = x.after s)
      (fun a s' => x.answer s = .ok a ∧ s' = x.after s) s := by
  unfold Leads answer Act.after
  rcases x.run.run s with ⟨e | a, s'⟩ <;> exact ⟨rfl, rfl⟩

/-- An operation that fails has led to where it failed. -/
theorem Leads.of_error {x : Act α} (h : Leads x E Q s) {e : Failure} (he : x.answer s = .error e) :
    E e (x.after s) := by
  revert h he
  unfold Leads answer Act.after
  rcases x.run.run s with ⟨e' | a, s'⟩
  · rintro h ⟨⟩
    exact h
  · rintro h ⟨⟩

/-- An operation that gives an answer has led to where it gave it. -/
theorem Leads.of_ok {x : Act α} (h : Leads x E Q s) {a : α} (ha : x.answer s = .ok a) :
    Q a (x.after s) := by
  revert h ha
  unfold Leads answer Act.after
  rcases x.run.run s with ⟨e | a', s'⟩
  · rintro h ⟨⟩
  · rintro h ⟨⟩
    exact h

/-- An operation that cannot fail gives an answer. -/
theorem Leads.exists_ok {x : Act α} (h : Leads x (fun _ _ => False) Q s) :
    ∃ a, x.answer s = .ok a ∧ Q a (x.after s) := by
  revert h
  unfold Leads answer Act.after
  rcases x.run.run s with ⟨e | a, s'⟩
  · exact False.elim
  · exact fun h => ⟨a, rfl, h⟩

/-- It makes no difference to the site whether an answer is looked at. -/
theorem after_discard (x : Act α) (s : Site) : (do let _ ← x : Act Unit).after s = x.after s := by
  unfold Act.after
  rw [ExceptT.run_bind, StateT.run_bind]
  rcases x.run.run s with ⟨e | a, s'⟩ <;> rfl

-- From here on only the lemmas take an operation apart; to evaluate it could go on for very long.
attribute [irreducible] Leads

end Depot.Act
