import Mathlib.Data.List.Induction
import MyStockIQ.SharedStore.Program
/-!
# Interleaved programs, and check-then-act

Any number of programs take turns on one store, one statement at a time. New
programs start at any moment.

A program that checks the store, and acts later on what the check found, is
right as long as nobody breaks the finding in between. A `Watch` names the
three kinds of statement involved. The store carries a version, raised by every
breaking statement, and each thread remembers the version of its last check
(neither is part of the program: they record the schedule). An act is fresh if
the version is still the one its thread checked.

A `Discipline` says what a thread may issue, given what it knows: knowledge is a
ghost value, updated by every statement from the store it finds. If every
program keeps to the discipline (`Allows`), then in every run whose acts are all
fresh the discipline's invariant holds, and what each thread knows is true of
the store (`Reach.disciplined`).
-/

namespace SharedStore

variable {L S ε α β K : Type}

structure Thread (L S ε : Type) where
  prog : Prog L S ε Unit
  seen : Nat

structure Config (L S ε : Type) where
  store : S
  version : Nat
  threads : List (Thread L S ε)

/-- The store before any program has started. -/
def Config.idle (s : S) : Config L S ε := ⟨s, 0, []⟩

/-- Which statements look, which act on what was seen, and which spoil what
others have seen. -/
structure Watch (L : Type) where
  checks : L → Bool
  acts : L → Bool
  breaks : L → Bool

section
variable (eff : S → L → S) (w : Watch L)

/-- The configuration after thread `i`, at `step l k`, has issued `l`. -/
def Config.fire (c : Config L S ε) (i : Nat) (seen : Nat) (l : L) (k : S → Prog L S ε Unit) : Config L S ε where
  store := eff c.store l
  version := if w.breaks l then c.version + 1 else c.version
  threads := c.threads.set i ⟨k c.store, if w.checks l then c.version else seen⟩

/-- Configurations reached from `c₀`: programs of `Admits` may start at any moment,
and each statement `l` is issued only when `Ok seen version l`. -/
inductive Reach (Admits : Prog L S ε Unit → Prop) (Ok : Nat → Nat → L → Prop) (c₀ : Config L S ε) :
    Config L S ε → Prop
  | refl : Reach Admits Ok c₀ c₀
  | start {c p} : Reach Admits Ok c₀ c → Admits p →
      Reach Admits Ok c₀ { c with threads := c.threads ++ [⟨p, 0⟩] }
  | step {c i l k seen} : Reach Admits Ok c₀ c → c.threads[i]? = some ⟨.step l k, seen⟩ →
      Ok seen c.version l → Reach Admits Ok c₀ (c.fire eff w i seen l k)

/-- No condition on the schedule. -/
def Anytime (_ _ : Nat) (_ : L) : Prop := True

/-- An act is issued at the version its thread last checked. -/
def Fresh (seen version : Nat) (l : L) : Prop := w.acts l = true → seen = version

end

/-! ## Running a schedule -/

section Schedule
variable (eff : S → L → S) (w : Watch L)

/-- One statement of thread `i`, if it has one left. -/
def Config.turn (c : Config L S ε) (i : Nat) : Config L S ε :=
  match c.threads[i]? with
  | some ⟨.step l k, seen⟩ => c.fire eff w i seen l k
  | _ => c

/-- The programs `ps`, all started. -/
def started (init : S) (ps : List (Prog L S ε Unit)) : Config L S ε := ⟨init, 0, ps.map (⟨·, 0⟩)⟩

/-- The threads take turns in the order `is`. -/
def Config.turns (c : Config L S ε) (is : List Nat) : Config L S ε := is.foldl (Config.turn eff w) c

/-- Every act of the turns is fresh. -/
def Config.freshly (c : Config L S ε) : List Nat → Bool
  | [] => true
  | i :: is =>
    (match c.threads[i]? with
      | some ⟨.step l _, seen⟩ => !w.acts l || seen == c.version
      | _ => true) && Config.freshly (c.turn eff w i) is

variable {eff w} {Admits : Prog L S ε Unit → Prop} {Ok : Nat → Nat → L → Prop}

theorem Reach.turn {c₀ c : Config L S ε} (h : Reach eff w Admits Ok c₀ c) (i : Nat)
    (hok : ∀ l k seen, c.threads[i]? = some ⟨.step l k, seen⟩ → Ok seen c.version l) :
    Reach eff w Admits Ok c₀ (c.turn eff w i) := by
  unfold Config.turn
  split
  · next l k seen ht => exact h.step ht (hok l k seen ht)
  · exact h

theorem reach_started (init : S) {ps : List (Prog L S ε Unit)} (hp : ∀ p ∈ ps, Admits p) :
    Reach eff w Admits Ok (.idle init) (started init ps) := by
  induction ps using List.reverseRecOn with
  | nil => exact .refl
  | append_singleton ps p ih =>
    unfold started
    rw [List.map_append]
    exact (ih fun q hq => hp q (by simp [hq])).start (hp p (by simp))

theorem Reach.turns {c₀ c : Config L S ε} (h : Reach eff w Admits Anytime c₀ c) (is : List Nat) :
    Reach eff w Admits Anytime c₀ (c.turns eff w is) := by
  induction is generalizing c with
  | nil => exact h
  | cons i is ih => exact ih (h.turn i fun _ _ _ _ => trivial)

theorem Reach.turns_fresh {c₀ c : Config L S ε} (h : Reach eff w Admits (Fresh w) c₀ c) {is : List Nat}
    (hf : c.freshly eff w is = true) : Reach eff w Admits (Fresh w) c₀ (c.turns eff w is) := by
  induction is generalizing c with
  | nil => exact h
  | cons i is ih =>
    simp only [Config.freshly, Bool.and_eq_true] at hf
    refine ih (h.turn i fun l k seen ht ha => ?_) hf.2
    simpa [ht, ha] using hf.1

/-- What every statement the programs can issue keeps, every run keeps. -/
theorem Reach.only_inv {A : L → Prop} {I : S → Prop} {c₀ c : Config L S ε} (hadm : ∀ p, Admits p → p.Only A)
    (hI : ∀ s l, A l → I s → I (eff s l)) (h : Reach eff w Admits Ok c₀ c)
    (h0 : I c₀.store ∧ ∀ t ∈ c₀.threads, t.prog.Only A) : I c.store ∧ ∀ t ∈ c.threads, t.prog.Only A := by
  induction h with
  | refl => exact h0
  | start _ hp ih =>
    refine ⟨ih.1, ?_⟩
    intro t ht
    rcases List.mem_append.1 ht with ht | ht
    · exact ih.2 t ht
    · rw [List.mem_singleton] at ht
      subst ht
      exact hadm _ hp
  | step _ ht _ ih =>
    obtain ⟨hl, hk⟩ := ih.2 _ (List.mem_of_getElem? ht)
    refine ⟨hI _ _ hl ih.1, ?_⟩
    intro t ht'
    rcases List.mem_or_eq_of_mem_set ht' with ht' | rfl
    · exact ih.2 t ht'
    · exact hk _

end Schedule

/-! ## Disciplines -/

/-- What threads may issue, given what they know, and what that keeps true.
`sound fresh k s`: the knowledge `k` is true of the store `s`, `fresh` telling
whether nothing broke since the thread's last check. -/
structure Discipline (eff : S → L → S) (w : Watch L) (K : Type) where
  inv : S → Prop
  learn : K → L → S → K
  may : K → L → Prop
  sound : Bool → K → S → Prop
  keep : ∀ {s k l fresh}, inv s → sound fresh k s → may k l → (w.acts l = true → fresh = true) → inv (eff s l)
  own : ∀ {s k l fresh}, inv s → sound fresh k s → may k l → (w.acts l = true → fresh = true) →
    sound (!w.breaks l && (w.checks l || fresh)) (learn k l s) (eff s l)
  other : ∀ {s k l fresh k' fresh'}, inv s → sound fresh k s → may k l → (w.acts l = true → fresh = true) →
    sound fresh' k' s → sound (!w.breaks l && fresh') k' (eff s l)

section Discipline
variable {eff : S → L → S} {w : Watch L} (D : Discipline eff w K)

/-- From knowledge `k`, `p` issues only what it may, and returns with `Q`. -/
def Discipline.Allows (k : K) : Prog L S ε α → (K → α → Prop) → Prop
  | .ret a, Q => Q k a
  | .raise _, _ => True
  | .step l f, Q => D.may k l ∧ ∀ s, D.inv s → Allows (D.learn k l s) (f s) Q

/-- A statement anyone may issue, and nothing is learned from. -/
def Discipline.Silent (l : L) : Prop := ∀ k, D.may k l ∧ ∀ s, D.learn k l s = k

variable {D} {k : K} {Q R : K → α → Prop}

@[simp] theorem allows_ret (a : α) : D.Allows k (.ret a : Prog L S ε α) Q ↔ Q k a := Iff.rfl

@[simp] theorem allows_raise (e : ε) : D.Allows k (.raise e : Prog L S ε α) Q := trivial

theorem allows_step (l : L) (f : S → Prog L S ε α) :
    D.Allows k (.step l f) Q ↔ D.may k l ∧ ∀ s, D.inv s → D.Allows (D.learn k l s) (f s) Q := Iff.rfl

theorem Discipline.Allows.bind {p : Prog L S ε α} {f : α → Prog L S ε β} {Q : K → β → Prop}
    (h : D.Allows k p fun k' a => D.Allows k' (f a) Q) : D.Allows k (p.bind f) Q := by
  induction p generalizing k with
  | ret a => exact h
  | raise e => trivial
  | step l f ih => exact ⟨h.1, fun s hs => ih s (h.2 s hs)⟩

theorem Discipline.Allows.mono {p : Prog L S ε α} (h : D.Allows k p Q) (hQ : ∀ k a, Q k a → R k a) :
    D.Allows k p R := by
  induction p generalizing k with
  | ret a => exact hQ k a h
  | raise e => trivial
  | step l f ih => exact ⟨h.1, fun s hs => ih s (h.2 s hs)⟩

/-- What follows needs no knowledge from `p`. -/
theorem Discipline.Allows.seq {p : Prog L S ε α} {f : α → Prog L S ε β} {Q : K → β → Prop}
    (hp : D.Allows k p R) (hf : ∀ k a, D.Allows k (f a) Q) : D.Allows k (p.bind f) Q :=
  .bind (hp.mono fun k a _ => hf k a)

theorem Discipline.Allows.silent_step {l : L} {f : S → Prog L S ε α} (hl : D.Silent l)
    (hf : ∀ s, D.inv s → D.Allows k (f s) Q) : D.Allows k (.step l f) Q := by
  refine ⟨(hl k).1, fun s hs => ?_⟩
  rw [(hl k).2 s]
  exact hf s hs

theorem Discipline.Allows.silent {p : Prog L S ε α} (hp : p.Only D.Silent) (hQ : ∀ a, Q k a) :
    D.Allows k p Q := by
  induction p with
  | ret a => exact hQ a
  | raise e => trivial
  | step l f ih => exact .silent_step hp.1 fun s _ => ih s (hp.2 s)

/-- A program of statements anyone may issue needs no knowledge. -/
theorem Discipline.Allows.free {p : Prog L S ε α} (hp : p.Only fun l => ∀ k, D.may k l) :
    D.Allows k p fun _ _ => True := by
  induction p generalizing k with
  | ret a => trivial
  | raise e => trivial
  | step l f ih => exact ⟨hp.1 k, fun s _ => ih s (hp.2 s)⟩

/-- A silent program leaves the knowledge, and its results are what they always are. -/
theorem Discipline.Allows.silent_ends {E : α → Prop} {p : Prog L S ε α} (hp : p.Only D.Silent) (he : p.Ends E)
    (hQ : ∀ a, E a → Q k a) : D.Allows k p Q := by
  induction p with
  | ret a => exact hQ a he
  | raise e => trivial
  | step l f ih => exact .silent_step hp.1 fun s _ => ih s (hp.2 s) (he s)

theorem Discipline.Allows.exec_bind {l : L} {f : Unit → Prog L S ε β} {Q : K → β → Prop} (hl : D.may k l)
    (hf : ∀ s, D.inv s → D.Allows (D.learn k l s) (f ()) Q) : D.Allows k ((Prog.exec l).bind f) Q := ⟨hl, hf⟩

theorem Discipline.Allows.query_bind {l : L} {g : S → α} {f : α → Prog L S ε β} {Q : K → β → Prop} (hl : D.may k l)
    (hf : ∀ s, D.inv s → D.Allows (D.learn k l s) (f (g s)) Q) : D.Allows k ((Prog.query l g).bind f) Q := ⟨hl, hf⟩

/-- A silent program, then `f`. -/
theorem Discipline.Allows.silent_bind {p : Prog L S ε α} {f : α → Prog L S ε β} {Q : K → β → Prop}
    (hp : p.Only D.Silent) (hf : ∀ a, D.Allows k (f a) Q) : D.Allows k (p.bind f) Q :=
  .bind (.silent hp hf)

/-- A loop keeps what its body keeps of the knowledge. -/
theorem Discipline.Allows.each {I : K → Prop} {f : β → Prog L S ε Unit} (bs : List β)
    (hf : ∀ b ∈ bs, ∀ k, I k → D.Allows k (f b) fun k' _ => I k') (hk : I k) :
    D.Allows k (Prog.each f bs) fun k' _ => I k' := by
  induction bs generalizing k with
  | nil => exact hk
  | cons b bs ih =>
    refine .bind ((hf b (by simp) k hk).mono fun k' _ h => ?_)
    exact ih (fun c hc => hf c (by simp [hc])) h

end Discipline

section Reach
variable {eff : S → L → S} {w : Watch L} {Admits : Prog L S ε Unit → Prop} {Ok : Nat → Nat → L → Prop}
  {c₀ c : Config L S ε}

/-- The thread keeps to the discipline, and what it knows is true. -/
def Thread.Sound (D : Discipline eff w K) (c : Config L S ε) (t : Thread L S ε) : Prop :=
  t.seen ≤ c.version ∧ ∃ k, D.Allows k t.prog (fun _ _ => True) ∧ D.sound (t.seen == c.version) k c.store

/-- The invariant holds, and every thread is sound. -/
def Config.Sound (D : Discipline eff w K) (c : Config L S ε) : Prop := D.inv c.store ∧ ∀ t ∈ c.threads, t.Sound D c

theorem sound_idle (D : Discipline eff w K) {init : S} (h : D.inv init) :
    (Config.idle init : Config L S ε).Sound D := ⟨h, by simp [Config.idle]⟩

/-- The version a statement leaves, for the freshness of what was seen before it. -/
theorem Config.seen_fire (eff : S → L → S) (w : Watch L) (c : Config L S ε) (i n : Nat) {seen : Nat} (l : L)
    (k : S → Prog L S ε Unit) (hle : seen ≤ c.version) :
    seen ≤ (c.fire eff w i n l k).version ∧
      (seen == (c.fire eff w i n l k).version) = (!w.breaks l && (seen == c.version)) := by
  cases hb : w.breaks l with
  | false => exact ⟨by simp [Config.fire, hb, hle], by simp [Config.fire, hb]⟩
  | true =>
    refine ⟨by simp only [Config.fire, hb, if_true]; omega, ?_⟩
    simp only [Config.fire, hb, if_true, Bool.not_true, Bool.false_and, beq_eq_false_iff_ne, ne_eq]
    omega

theorem Thread.Sound.step {D : Discipline eff w K} {i seen : Nat} {l : L} {f : S → Prog L S ε Unit}
    (hc : D.inv c.store) (h : Thread.Sound D c ⟨.step l f, seen⟩) (hf : Fresh w seen c.version l) :
    D.inv (eff c.store l) ∧
      Thread.Sound D (c.fire eff w i seen l f) ⟨f c.store, if w.checks l then c.version else seen⟩ ∧
      ∀ t : Thread L S ε, t.Sound D c → t.Sound D (c.fire eff w i seen l f) := by
  obtain ⟨hle, k, hk, hs⟩ := h
  obtain ⟨hmay, hnext⟩ := (allows_step l f).1 hk
  have hfr : w.acts l = true → (seen == c.version) = true := fun ha => by simpa using hf ha
  refine ⟨D.keep hc hs hmay hfr, ?_, fun t ht => ?_⟩
  · -- The thread itself learns, and is fresh again if it checked.
    have hle' : (if w.checks l then c.version else seen) ≤ c.version := by split <;> omega
    have heq : ((if w.checks l then c.version else seen) == c.version) = (w.checks l || (seen == c.version)) := by
      cases w.checks l <;> simp
    obtain ⟨h1, h2⟩ := c.seen_fire eff w i seen l f hle'
    refine ⟨h1, _, hnext c.store hc, ?_⟩
    dsimp only
    rw [h2, heq]
    exact D.own hc hs hmay hfr
  · -- The others keep what they know, but a breaking statement makes it stale.
    obtain ⟨hle', k', hk', hs'⟩ := ht
    obtain ⟨h1, h2⟩ := c.seen_fire eff w i seen l f hle'
    refine ⟨h1, k', hk', ?_⟩
    rw [h2]
    exact D.other hc hs hmay hfr hs'

/-- In a run whose acts are all fresh, the invariant holds and every thread knows
only what is true. -/
theorem Reach.disciplined (D : Discipline eff w K)
    (hadm : ∀ p, Admits p → ∃ k, (∀ fresh s, D.inv s → D.sound fresh k s) ∧ D.Allows k p fun _ _ => True)
    (h0 : c₀.Sound D) (hok : ∀ seen version l, Ok seen version l → Fresh w seen version l)
    (h : Reach eff w Admits Ok c₀ c) : c.Sound D := by
  induction h with
  | refl => exact h0
  | start _ hp ih =>
    refine ⟨ih.1, fun t ht => ?_⟩
    rcases List.mem_append.1 ht with ht | ht
    · exact ih.2 t ht
    · rw [List.mem_singleton] at ht; subst ht
      obtain ⟨k, hk, hp⟩ := hadm _ hp
      exact ⟨Nat.zero_le _, k, hp, hk _ _ ih.1⟩
  | step _ ht hl ih =>
    obtain ⟨hc, hall⟩ := ih
    obtain ⟨hinv, hown, hother⟩ := (hall _ (List.mem_of_getElem? ht)).step hc (hok _ _ _ hl)
    refine ⟨hinv, fun t ht' => ?_⟩
    rcases List.mem_or_eq_of_mem_set ht' with ht' | rfl
    · exact hother t (hall t ht')
    · exact hown

/-- What no disciplined statement takes from the store, no run takes from it. -/
theorem Reach.kept (D : Discipline eff w K)
    (hadm : ∀ p, Admits p → ∃ k, (∀ fresh s, D.inv s → D.sound fresh k s) ∧ D.Allows k p fun _ _ => True)
    (h0 : c₀.Sound D) (hok : ∀ seen version l, Ok seen version l → Fresh w seen version l) {J : S → Prop}
    (hJ : ∀ s k l seen version, D.inv s → D.sound (seen == version) k s → D.may k l → Ok seen version l →
      J s → J (eff s l))
    (h : Reach eff w Admits Ok c₀ c) (h0J : J c₀.store) : J c.store := by
  induction h with
  | refl => exact h0J
  | start _ _ ih => exact ih
  | step hreach ht hl ih =>
    obtain ⟨hc, hall⟩ := hreach.disciplined D hadm h0 hok
    obtain ⟨-, k, hk, hs⟩ := hall _ (List.mem_of_getElem? ht)
    exact hJ _ _ _ _ _ hc hs ((allows_step _ _).1 hk).1 hl ih

end Reach
end SharedStore
