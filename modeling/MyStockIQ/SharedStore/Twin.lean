import MyStockIQ.SharedStore.Program
/-!
# Two runs of one program

`Twin` runs a program from two stores that are alike as far as `P` says, and has
it end the same way in both. What the program reads has to be alike; what it
does not read may differ, and then the stores it leaves may differ there.
-/

namespace SharedStore.Prog

variable {L S ε α β : Type} {eff : S → L → S}

/-- From stores related by `P`, both runs of `p` complete with the same result and
stores related by `Q`, or raise the same exception with stores related by `E`. -/
def Twin (eff : S → L → S) (P : S → S → Prop) (p : Prog L S ε α) (Q : α → S → S → Prop) (E : S → S → Prop) : Prop :=
  ∀ s s', P s s' →
    (∃ a t t', p.run eff s = (.ok a, t) ∧ p.run eff s' = (.ok a, t') ∧ Q a t t') ∨
    ∃ e t t', p.run eff s = (.error e, t) ∧ p.run eff s' = (.error e, t') ∧ E t t'

variable {P P' E : S → S → Prop} {Q : α → S → S → Prop}

theorem Twin.ret {a : α} (h : ∀ s s', P s s' → Q a s s') : Twin eff P (ret a : Prog L S ε α) Q E :=
  fun s s' hs => .inl ⟨a, s, s', rfl, rfl, h s s' hs⟩

theorem Twin.raise {e : ε} (h : ∀ s s', P s s' → E s s') : Twin eff P (raise e : Prog L S ε α) Q E :=
  fun s s' hs => .inr ⟨e, s, s', rfl, rfl, h s s' hs⟩

theorem Twin.post {p : Prog L S ε α} {Q' : α → S → S → Prop} (h : Twin eff P p Q E)
    (hQ : ∀ a s s', Q a s s' → Q' a s s') : Twin eff P p Q' E := by
  intro s s' hs
  rcases h s s' hs with ⟨a, t, t', hrun, hrun', ht⟩ | hraised
  · exact .inl ⟨a, t, t', hrun, hrun', hQ a t t' ht⟩
  · exact .inr hraised

theorem Twin.bind {p : Prog L S ε α} {f : α → Prog L S ε β} {R : β → S → S → Prop} (hp : Twin eff P p Q E)
    (hf : ∀ a, Twin eff (Q a) (f a) R E) : Twin eff P (p.bind f) R E := by
  intro s s' hs
  rcases hp s s' hs with ⟨a, t, t', hrun, hrun', ht⟩ | ⟨e, t, t', hrun, hrun', ht⟩
  · rw [run_bind_ok eff hrun, run_bind_ok eff hrun']
    exact hf a t t' ht
  · rw [run_bind_error eff hrun, run_bind_error eff hrun']
    exact .inr ⟨e, t, t', rfl, rfl, ht⟩

/-- A query whose answer is alike. -/
theorem Twin.query {l : L} {f : S → α} (heff : ∀ s, eff s l = s) (h : ∀ s s', P s s' → f s = f s') :
    Twin eff P (query l f : Prog L S ε α) (fun _ => P) E := by
  intro s s' hs
  refine .inl ⟨f s, s, s', ?_, ?_, hs⟩
  · simp [Prog.query, heff]
  · simp [Prog.query, heff, h s s' hs]

theorem Twin.exec {l : L} (h : ∀ s s', P s s' → P' (eff s l) (eff s' l)) :
    Twin eff P (exec l : Prog L S ε Unit) (fun _ => P') E :=
  fun s s' hs => .inl ⟨(), _, _, rfl, rfl, h s s' hs⟩

/-- A loop, where what is alike depends on the elements that were run. -/
theorem Twin.each {I : List β → S → S → Prop} {f : β → Prog L S ε Unit} (done bs : List β)
    (hf : ∀ before b after, done ++ bs = before ++ b :: after → Twin eff (I before) (f b) (fun _ => I (before ++ [b])) E) :
    Twin eff (I done) (each f bs) (fun _ => I (done ++ bs)) E := by
  induction bs generalizing done with
  | nil =>
    rw [List.append_nil]
    exact .ret fun _ _ h => h
  | cons b bs ih =>
    refine .bind (hf done b bs rfl) fun _ => ?_
    have hrest := ih (done ++ [b]) fun before b' after heq => hf before b' after (by simpa using heq)
    rwa [List.append_assoc, List.singleton_append] at hrest

end SharedStore.Prog
