import Mathlib.Tactic.Common
/-!
# Programs over a shared store

A program issues atomic statements `l : L` on a store. `eff` says what a
statement does to the store; the program goes on with the store the statement
found, so a query is a statement that leaves the store alone. An exception ends
the program and keeps every statement already issued.

`Prog.run` runs a program alone. `Triple` is the partial-correctness rule for
completed runs, `Outcome` also says what an exception leaves; `Only` bounds the
statements a program can issue, whatever the store holds when it looks.
-/

namespace SharedStore

/-- A program returning an `α`, or raising an `ε`. -/
inductive Prog (L S ε α : Type) where
  | ret (a : α)
  | raise (e : ε)
  | step (l : L) (k : S → Prog L S ε α)

variable {L S ε α β : Type}

/-- What goes on to a result has had one before. -/
theorem bind_eq_ok {value : Except ε α} {f : α → Except ε β} {b : β} (h : value >>= f = .ok b) :
    ∃ a, value = .ok a ∧ f a = .ok b := by
  cases value with
  | error e => cases h
  | ok a => exact ⟨a, rfl, h⟩

namespace Prog

def bind : Prog L S ε α → (α → Prog L S ε β) → Prog L S ε β
  | ret a, f => f a
  | raise e, _ => raise e
  | step l k, f => step l fun s => (k s).bind f

instance : Monad (Prog L S ε) where
  pure := ret
  bind := bind

/-- Issue `l` and read `f` off the store it found. -/
def query (l : L) (f : S → α) : Prog L S ε α := step l fun s => ret (f s)

/-- Issue `l` for its effect. -/
def exec (l : L) : Prog L S ε Unit := step l fun _ => ret ()

/-- Run `f` on each element in turn. -/
def each (f : β → Prog L S ε Unit) : List β → Prog L S ε Unit
  | [] => ret ()
  | b :: bs => (f b).bind fun _ => each f bs

/-- Rescue: `none` if `p` raised. -/
def attempt : Prog L S ε α → Prog L S ε (Option α)
  | ret a => ret (some a)
  | raise _ => ret none
  | step l k => step l fun s => (k s).attempt

@[simp] theorem pure_eq (a : α) : (pure a : Prog L S ε α) = ret a := rfl

@[simp] theorem bind_eq (p : Prog L S ε α) (f : α → Prog L S ε β) : p >>= f = p.bind f := rfl

@[simp] theorem ret_bind (a : α) (f : α → Prog L S ε β) : (ret a : Prog L S ε α).bind f = f a := rfl

@[simp] theorem raise_bind (e : ε) (f : α → Prog L S ε β) : (raise e : Prog L S ε α).bind f = raise e := rfl

@[simp] theorem step_bind (l : L) (k : S → Prog L S ε α) (f : α → Prog L S ε β) :
    (step l k).bind f = step l fun s => (k s).bind f := rfl

@[simp] theorem query_bind (l : L) (g : S → α) (f : α → Prog L S ε β) :
    (query l g).bind f = step l fun s => f (g s) := rfl

@[simp] theorem exec_bind (l : L) (f : Unit → Prog L S ε β) :
    (exec l).bind f = step l fun _ => f () := rfl

theorem bind_assoc {γ : Type} (p : Prog L S ε α) (f : α → Prog L S ε β) (g : β → Prog L S ε γ) :
    (p.bind f).bind g = p.bind fun a => (f a).bind g := by
  induction p with
  | ret a => rfl
  | raise e => rfl
  | step l k ih => exact congrArg (step l) (funext ih)

/-! ## Running alone -/

section Run
variable (eff : S → L → S)

/-- The result and the store after the program has run alone from `s`. -/
def run : Prog L S ε α → S → Except ε α × S
  | ret a, s => (.ok a, s)
  | raise e, s => (.error e, s)
  | step l k, s => run (k s) (eff s l)

@[simp] theorem run_ret (a : α) (s : S) : (ret a : Prog L S ε α).run eff s = (.ok a, s) := rfl

@[simp] theorem run_raise (e : ε) (s : S) : (raise e : Prog L S ε α).run eff s = (.error e, s) := rfl

@[simp] theorem run_step (l : L) (k : S → Prog L S ε α) (s : S) :
    (step l k).run eff s = (k s).run eff (eff s l) := rfl

theorem run_bind (p : Prog L S ε α) (f : α → Prog L S ε β) (s : S) :
    (p.bind f).run eff s = match p.run eff s with
      | (.ok a, s') => (f a).run eff s'
      | (.error e, s') => (.error e, s') := by
  induction p generalizing s with
  | ret a => rfl
  | raise e => rfl
  | step l k ih => exact ih s (eff s l)

theorem run_bind_ok {p : Prog L S ε α} {a : α} {s s' : S} (h : p.run eff s = (.ok a, s'))
    (f : α → Prog L S ε β) : (p.bind f).run eff s = (f a).run eff s' := by
  rw [run_bind, h]

theorem run_bind_error {p : Prog L S ε α} {e : ε} {s s' : S} (h : p.run eff s = (.error e, s'))
    (f : α → Prog L S ε β) : (p.bind f).run eff s = (.error e, s') := by
  rw [run_bind, h]

/-- A run that completes has completed the first program, and goes on with what that left. -/
theorem run_bind_inv {p : Prog L S ε α} {f : α → Prog L S ε β} {b : β} {s s' : S}
    (h : (p.bind f).run eff s = (.ok b, s')) :
    ∃ a middle, p.run eff s = (.ok a, middle) ∧ (f a).run eff middle = (.ok b, s') := by
  rw [run_bind] at h
  rcases hp : p.run eff s with ⟨e | a, middle⟩
  · rw [hp] at h
    cases h
  · rw [hp] at h
    exact ⟨a, middle, rfl, h⟩

/-- A rescued program keeps what it did before it raised. -/
theorem run_attempt (p : Prog L S ε α) (s : S) : p.attempt.run eff s = match p.run eff s with
      | (.ok a, s') => (.ok (some a), s')
      | (.error _, s') => (.ok none, s') := by
  induction p generalizing s with
  | ret a => rfl
  | raise e => rfl
  | step l k ih => exact ih s (eff s l)

/-- Dropping the result changes nothing in the store. -/
theorem run_bind_ret (p : Prog L S ε α) (g : α → β) (s : S) :
    ((p.bind fun a => ret (g a)).run eff s).2 = (p.run eff s).2 := by
  rw [run_bind]
  rcases p.run eff s with ⟨_ | _, _⟩ <;> rfl

/-- A program that only answers `b` in the end completed up to there. -/
theorem run_of_answered {p : Prog L S ε α} {b c : β} {s s' : S} (h : (p.bind fun _ => ret b).run eff s = (.ok c, s')) :
    c = b ∧ ∃ a, p.run eff s = (.ok a, s') := by
  obtain ⟨a, middle, hp, h⟩ := run_bind_inv eff h
  cases h
  exact ⟨rfl, a, hp⟩

/-- Every completed run of `p` from a store with `P` ends with `Q`. -/
def Triple (P : S → Prop) (p : Prog L S ε α) (Q : α → S → Prop) : Prop :=
  ∀ s a s', P s → p.run eff s = (.ok a, s') → Q a s'

variable {eff} {P P' : S → Prop} {Q Q' : α → S → Prop}

theorem Triple.ret {a : α} (h : ∀ s, P s → Q a s) : Triple eff P (ret a : Prog L S ε α) Q := by
  rintro s _ _ hs ⟨⟩; exact h s hs

theorem Triple.raise {e : ε} : Triple eff P (raise e : Prog L S ε α) Q := by
  rintro s _ _ _ ⟨⟩

theorem Triple.bind {p : Prog L S ε α} {f : α → Prog L S ε β} {R : β → S → Prop}
    (hp : Triple eff P p Q) (hf : ∀ a, Triple eff (Q a) (f a) R) : Triple eff P (p.bind f) R := by
  intro s b s'' hs hr
  rw [run_bind] at hr
  rcases h : p.run eff s with ⟨a | a, s'⟩ <;> rw [h] at hr
  · cases hr
  · exact hf a s' b s'' (hp s a s' hs h) hr

theorem Triple.conseq {p : Prog L S ε α} (h : Triple eff P p Q) (hP : ∀ s, P' s → P s)
    (hQ : ∀ a s, Q a s → Q' a s) : Triple eff P' p Q' :=
  fun s a s' hs hr => hQ a s' (h s a s' (hP s hs) hr)

theorem Triple.pre {p : Prog L S ε α} (h : Triple eff P p Q) (hP : ∀ s, P' s → P s) : Triple eff P' p Q :=
  h.conseq hP fun _ _ h => h

theorem Triple.post {p : Prog L S ε α} (h : Triple eff P p Q) (hQ : ∀ a s, Q a s → Q' a s) : Triple eff P p Q' :=
  h.conseq (fun _ h => h) hQ

/-- It is enough to run from each store on its own. -/
theorem Triple.of_each {p : Prog L S ε α} (h : ∀ s₀, P s₀ → Triple eff (fun s => s = s₀) p Q) : Triple eff P p Q :=
  fun s a s' hs hr => h s hs s a s' rfl hr

theorem Triple.and {p : Prog L S ε α} (h : Triple eff P p Q) (h' : Triple eff P' p Q') :
    Triple eff (fun s => P s ∧ P' s) p (fun a s => Q a s ∧ Q' a s) :=
  fun s a s' hs hr => ⟨h s a s' hs.1 hr, h' s a s' hs.2 hr⟩

/-- A loop keeps what its body keeps. -/
theorem Triple.each {I : S → Prop} {f : β → Prog L S ε Unit} (bs : List β)
    (hf : ∀ b ∈ bs, Triple eff I (f b) (fun _ => I)) : Triple eff I (Prog.each f bs) (fun _ => I) := by
  induction bs with
  | nil => exact .ret fun _ h => h
  | cons b bs ih => exact .bind (hf b (by simp)) fun _ => ih fun c hc => hf c (by simp [hc])

/-- Every run of `p` from a store with `P` completes with `Q`, or is ended by an exception with `E`. -/
structure Outcome (eff : S → L → S) (P : S → Prop) (p : Prog L S ε α) (Q : α → S → Prop) (E : S → Prop) : Prop where
  completed : Triple eff P p Q
  raised : ∀ s e s', P s → p.run eff s = (.error e, s') → E s'

variable {E E' : S → Prop}

theorem Outcome.ret {a : α} (h : ∀ s, P s → Q a s) : Outcome eff P (ret a : Prog L S ε α) Q E := by
  refine ⟨Triple.ret h, ?_⟩
  rintro s e s' _ ⟨⟩

theorem Outcome.raise {e : ε} (h : ∀ s, P s → E s) : Outcome eff P (raise e : Prog L S ε α) Q E := by
  refine ⟨Triple.raise, ?_⟩
  rintro s _ _ hs ⟨⟩
  exact h s hs

theorem Outcome.bind {p : Prog L S ε α} {f : α → Prog L S ε β} {R : β → S → Prop} (hp : Outcome eff P p Q E)
    (hf : ∀ a, Outcome eff (Q a) (f a) R E) : Outcome eff P (p.bind f) R E := by
  refine ⟨hp.completed.bind fun a => (hf a).completed, ?_⟩
  intro s e s'' hs hr
  rw [run_bind] at hr
  rcases h : p.run eff s with ⟨a | a, s'⟩ <;> rw [h] at hr
  · cases hr
    exact hp.raised s _ _ hs h
  · exact (hf a).raised s' e s'' (hp.completed s a s' hs h) hr

theorem Outcome.conseq {p : Prog L S ε α} (h : Outcome eff P p Q E) (hP : ∀ s, P' s → P s)
    (hQ : ∀ a s, Q a s → Q' a s) (hE : ∀ s, E s → E' s) : Outcome eff P' p Q' E' :=
  ⟨h.completed.conseq hP hQ, fun s e s' hs hr => hE s' (h.raised s e s' (hP s hs) hr)⟩

theorem Outcome.pre {p : Prog L S ε α} (h : Outcome eff P p Q E) (hP : ∀ s, P' s → P s) :
    Outcome eff P' p Q E := h.conseq hP (fun _ _ h => h) fun _ h => h

theorem Outcome.post {p : Prog L S ε α} (h : Outcome eff P p Q E) (hQ : ∀ a s, Q a s → Q' a s) :
    Outcome eff P p Q' E := h.conseq (fun _ h => h) hQ fun _ h => h

/-- From one store that meets the precondition. -/
theorem Outcome.at_store {p : Prog L S ε α} (h : Outcome eff P p Q E) {s₀ : S} (hs : P s₀) :
    Outcome eff (fun s => s = s₀) p Q E := h.pre fun _ heq => heq ▸ hs

theorem Outcome.and {p : Prog L S ε α} (h : Outcome eff P p Q E) (h' : Outcome eff P' p Q' E') :
    Outcome eff (fun s => P s ∧ P' s) p (fun a s => Q a s ∧ Q' a s) (fun s => E s ∧ E' s) :=
  ⟨h.completed.and h'.completed, fun s e s' hs hr => ⟨h.raised s e s' hs.1 hr, h'.raised s e s' hs.2 hr⟩⟩

theorem Outcome.of_each {p : Prog L S ε α} (h : ∀ s₀, P s₀ → Outcome eff (fun s => s = s₀) p Q E) :
    Outcome eff P p Q E :=
  ⟨.of_each fun s hs => (h s hs).completed, fun s e s' hs hr => (h s hs).raised s e s' rfl hr⟩

/-- From the run of one store. -/
theorem Outcome.of_run {p : Prog L S ε α} {s₀ s₁ : S} {result : Except ε α} (h : p.run eff s₀ = (result, s₁))
    (hQ : ∀ a, result = .ok a → Q a s₁) (hE : ∀ e, result = .error e → E s₁) :
    Outcome eff (fun s => s = s₀) p Q E := by
  constructor
  · rintro s a s' rfl hr
    obtain ⟨rfl, rfl⟩ := Prod.mk.inj (h.symm.trans hr)
    exact hQ a rfl
  · rintro s e s' rfl hr
    obtain ⟨rfl, rfl⟩ := Prod.mk.inj (h.symm.trans hr)
    exact hE e rfl

/-- After a program whose run is known. -/
theorem Outcome.ok_bind {p : Prog L S ε α} {f : α → Prog L S ε β} {R : β → S → Prop} {a : α} {s₀ s₁ : S}
    (h : p.run eff s₀ = (.ok a, s₁)) (hf : Outcome eff (fun s => s = s₁) (f a) R E) :
    Outcome eff (fun s => s = s₀) (p.bind f) R E := by
  refine (Outcome.of_run h ?_ (by simp)).bind (Q := fun b s => b = a ∧ s = s₁) ?_
  · rintro _ ⟨⟩
    exact ⟨rfl, rfl⟩
  · intro b
    refine .of_each fun s hs => ?_
    obtain ⟨rfl, rfl⟩ := hs
    exact hf

/-- A loop that stops at the first exception. -/
theorem Outcome.each {I : S → Prop} {f : β → Prog L S ε Unit} (bs : List β)
    (hf : ∀ b ∈ bs, Outcome eff I (f b) (fun _ => I) E) : Outcome eff I (Prog.each f bs) (fun _ => I) E := by
  induction bs with
  | nil => exact .ret fun _ h => h
  | cons b bs ih => exact .bind (hf b (by simp)) fun _ => ih fun c hc => hf c (by simp [hc])

/-- What the run leaves, however it ends. -/
theorem Outcome.store {p : Prog L S ε α} {I : S → Prop} (h : Outcome eff P p (fun _ => I) I) {s : S} (hs : P s) :
    I (p.run eff s).2 := by
  rcases hrun : p.run eff s with ⟨e | a, s'⟩
  · exact h.raised s e s' hs hrun
  · exact h.completed s a s' hs hrun

/-- Without an exception there is a result. -/
theorem Outcome.completes {p : Prog L S ε α} (h : Outcome eff P p Q fun _ => False) {s : S} (hs : P s) :
    ∃ a s', p.run eff s = (.ok a, s') ∧ Q a s' := by
  rcases hrun : p.run eff s with ⟨e | a, s'⟩
  · exact (h.raised s e s' hs hrun).elim
  · exact ⟨a, s', rfl, h.completed s a s' hs hrun⟩

end Run

/-! ## The statements a program can issue -/

/-- Every statement `p` can issue satisfies `A`. -/
def Only (A : L → Prop) : Prog L S ε α → Prop
  | ret _ => True
  | raise _ => True
  | step l k => A l ∧ ∀ s, (k s).Only A

section Only
variable {A B : L → Prop}

@[simp] theorem only_ret (a : α) : (ret a : Prog L S ε α).Only A := trivial

@[simp] theorem only_raise (e : ε) : (raise e : Prog L S ε α).Only A := trivial

@[simp] theorem only_step (l : L) (k : S → Prog L S ε α) :
    (step l k).Only A ↔ A l ∧ ∀ s, (k s).Only A := Iff.rfl

@[simp] theorem only_query (l : L) (f : S → α) : (query l f : Prog L S ε α).Only A ↔ A l := by
  simp [query]

@[simp] theorem only_exec (l : L) : (exec l : Prog L S ε Unit).Only A ↔ A l := by
  simp [exec]

theorem Only.bind {p : Prog L S ε α} {f : α → Prog L S ε β} (hp : p.Only A) (hf : ∀ a, (f a).Only A) :
    (p.bind f).Only A := by
  induction p with
  | ret a => exact hf a
  | raise e => trivial
  | step l k ih => exact ⟨hp.1, fun s => ih s (hp.2 s)⟩

theorem Only.mono {p : Prog L S ε α} (hp : p.Only A) (h : ∀ l, A l → B l) : p.Only B := by
  induction p with
  | ret a => trivial
  | raise e => trivial
  | step l k ih => exact ⟨h l hp.1, fun s => ih s (hp.2 s)⟩

theorem only_true (p : Prog L S ε α) : p.Only fun _ => True := by
  induction p with
  | ret a => trivial
  | raise e => trivial
  | step l k ih => exact ⟨trivial, ih⟩

theorem Only.each {f : β → Prog L S ε Unit} (bs : List β) (hf : ∀ b ∈ bs, (f b).Only A) :
    (each f bs).Only A := by
  induction bs with
  | nil => trivial
  | cons b bs ih => exact .bind (hf b (by simp)) fun _ => ih fun c hc => hf c (by simp [hc])

/-- What every allowed statement keeps, the run keeps, raised or not. -/
theorem Only.run_inv {eff : S → L → S} {I : S → Prop} {p : Prog L S ε α} (hp : p.Only A)
    (hI : ∀ s l, A l → I s → I (eff s l)) {s : S} (hs : I s) : I (p.run eff s).2 := by
  induction p generalizing s with
  | ret a => exact hs
  | raise e => exact hs
  | step l k ih => exact ih s (hp.2 s) (hI s l hp.1 hs)

/-- However the run ends, it keeps what every allowed statement keeps. -/
theorem Only.outcome {eff : S → L → S} {I : S → Prop} {p : Prog L S ε α} (hp : p.Only A)
    (hI : ∀ s l, A l → I s → I (eff s l)) : Outcome eff I p (fun _ => I) I := by
  constructor
  · intro s a s' hs hr
    simpa [hr] using hp.run_inv hI hs
  · intro s e s' hs hr
    simpa [hr] using hp.run_inv hI hs

/-- What no allowed statement changes, the run does not change. -/
theorem Only.run_frame {γ : Type} {eff : S → L → S} {f : S → γ} {p : Prog L S ε α} (hp : p.Only A)
    (hf : ∀ s l, A l → f (eff s l) = f s) (s : S) : f (p.run eff s).2 = f s :=
  hp.run_inv (I := fun s' => f s' = f s) (fun s' l hl h => (hf s' l hl).trans h) rfl

/-- A completed run of a program that keeps `I` keeps it. -/
theorem Only.triple {eff : S → L → S} {I : S → Prop} {p : Prog L S ε α} (hp : p.Only A)
    (hI : ∀ s l, A l → I s → I (eff s l)) : Triple eff I p (fun _ => I) := by
  intro s a s' hs hr
  have h := hp.run_inv hI hs
  rwa [hr] at h

/-- Every result of `p` satisfies `R`, whatever it finds. -/
def Ends (R : α → Prop) : Prog L S ε α → Prop
  | ret a => R a
  | raise _ => True
  | step _ k => ∀ s, (k s).Ends R

theorem Ends.bind {R : α → Prop} {R' : β → Prop} {p : Prog L S ε α} {f : α → Prog L S ε β} (hp : p.Ends R)
    (hf : ∀ a, R a → (f a).Ends R') : (p.bind f).Ends R' := by
  induction p with
  | ret a => exact hf a hp
  | raise e => trivial
  | step l k ih => exact fun s => ih s (hp s)

theorem ends_true (p : Prog L S ε α) : p.Ends fun _ => True := by
  induction p with
  | ret a => trivial
  | raise e => trivial
  | step l k ih => exact ih

theorem Ends.run {R : α → Prop} {p : Prog L S ε α} (h : p.Ends R) {eff : S → L → S} {s : S} {a : α}
    (hok : (p.run eff s).1 = .ok a) : R a := by
  induction p generalizing s with
  | ret b => cases hok; exact h
  | raise e => cases hok
  | step l k ih => exact ih s (h s) hok

/-- A program, then one that need only behave on its results. -/
theorem Only.bind_ends {R : α → Prop} {p : Prog L S ε α} {f : α → Prog L S ε β} (hp : p.Only A) (hr : p.Ends R)
    (hf : ∀ a, R a → (f a).Only A) : (p.bind f).Only A := by
  induction p with
  | ret a => exact hf a hr
  | raise e => trivial
  | step l k ih => exact ⟨hp.1, fun s => ih s (hp.2 s) (hr s)⟩

end Only
end Prog

/-! ## One program after another -/

/-- The stores reached from `init` by runs one after another, `run j` being taken
from a store that admits it. -/
inductive Serial {J : Type} (run : J → S → S) (Admits : S → J → Prop) (init : S) : S → Prop
  | init : Serial run Admits init init
  | run {s j} : Serial run Admits init s → Admits s j → Serial run Admits init (run j s)

/-- What every admitted run keeps, a whole series keeps. -/
theorem Serial.inv {J : Type} {run : J → S → S} {Admits : S → J → Prop} {init s : S} {I : S → Prop}
    (h : Serial run Admits init s) (h0 : I init) (hI : ∀ s j, Admits s j → I s → I (run j s)) : I s := by
  induction h with
  | init => exact h0
  | run _ hj ih => exact hI _ _ hj ih

end SharedStore
