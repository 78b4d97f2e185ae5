import MyStockIQ.SharedStore.Program
/-!
# The statements of one run

`Prog.issued` lists what a program issues when it runs alone. A program that
completes from every store can be put before another one without keeping it from
anything, so a loop of such programs issues what each of its bodies does.
-/

namespace SharedStore.Prog

variable {L S ε α β : Type} (eff : S → L → S)

/-- The statements a program issues from `s`, the first one first. -/
def issued : Prog L S ε α → S → List L
  | ret _, _ => []
  | raise _, _ => []
  | step l k, s => l :: issued (k s) (eff s l)

/-- Every run of the program ends with a result. -/
def Completes (p : Prog L S ε α) : Prop := ∀ s, ∃ a s', p.run eff s = (.ok a, s')

/-- Every run of the program issues a statement of this kind. -/
def Issues (A : L → Prop) (p : Prog L S ε α) : Prop := ∀ s, ∃ l ∈ p.issued eff s, A l

variable {eff} {A : L → Prop} {p : Prog L S ε α} {f : α → Prog L S ε β}

theorem issued_bind_left {l : L} {s : S} (h : l ∈ p.issued eff s) : l ∈ (p.bind f).issued eff s := by
  induction p generalizing s with
  | ret a => cases h
  | raise e => cases h
  | step l' k ih =>
    rcases List.mem_cons.1 h with rfl | h
    · exact List.mem_cons_self
    · exact List.mem_cons_of_mem _ (ih s h)

theorem issued_bind_right {a : α} {l : L} {s s' : S} (hrun : p.run eff s = (.ok a, s'))
    (h : l ∈ (f a).issued eff s') : l ∈ (p.bind f).issued eff s := by
  induction p generalizing s with
  | ret b =>
    cases hrun
    exact h
  | raise e => cases hrun
  | step l' k ih => exact List.mem_cons_of_mem _ (ih s hrun)

/-! ## Programs that complete -/

theorem completes_ret (a : α) : Completes eff (ret a : Prog L S ε α) := fun s => ⟨a, s, rfl⟩

theorem completes_query (l : L) (g : S → α) : Completes eff (query l g : Prog L S ε α) := fun s => ⟨g s, eff s l, rfl⟩

theorem completes_exec (l : L) : Completes eff (exec l : Prog L S ε Unit) := fun s => ⟨(), eff s l, rfl⟩

theorem Completes.bind (hp : Completes eff p) (hf : ∀ a, Completes eff (f a)) : Completes eff (p.bind f) := by
  intro s
  obtain ⟨a, s', hrun⟩ := hp s
  obtain ⟨b, s'', hrest⟩ := hf a s'
  exact ⟨b, s'', (run_bind_ok eff hrun f).trans hrest⟩

theorem Completes.each {f : β → Prog L S ε Unit} {bs : List β} (hf : ∀ b ∈ bs, Completes eff (f b)) :
    Completes eff (each f bs) := by
  induction bs with
  | nil => exact completes_ret ()
  | cons b bs ih => exact .bind (hf b (by simp)) fun _ => ih fun c hc => hf c (by simp [hc])

/-! ## What they issue -/

theorem Issues.exec {l : L} (h : A l) : Issues eff A (exec l : Prog L S ε Unit) :=
  fun _ => ⟨l, List.mem_singleton_self l, h⟩

theorem Issues.bind_left (hp : Issues eff A p) : Issues eff A (p.bind f) := by
  intro s
  obtain ⟨l, hl, hA⟩ := hp s
  exact ⟨l, issued_bind_left hl, hA⟩

theorem Issues.bind_right (hp : Completes eff p) (hf : ∀ a, Issues eff A (f a)) : Issues eff A (p.bind f) := by
  intro s
  obtain ⟨a, s', hrun⟩ := hp s
  obtain ⟨l, hl, hA⟩ := hf a s'
  exact ⟨l, issued_bind_right hrun hl, hA⟩

/-- A loop of bodies that all complete issues what any of them does. -/
theorem Issues.each {f : β → Prog L S ε Unit} {bs : List β} (hcompletes : ∀ b ∈ bs, Completes eff (f b)) {b : β}
    (hmem : b ∈ bs) (hb : Issues eff A (f b)) : Issues eff A (each f bs) := by
  induction bs with
  | nil => cases hmem
  | cons c bs ih =>
    rcases List.mem_cons.1 hmem with rfl | hmem
    · exact .bind_left hb
    · exact .bind_right (hcompletes c (by simp)) fun _ => ih (fun d hd => hcompletes d (by simp [hd])) hmem

end SharedStore.Prog
