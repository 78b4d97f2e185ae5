import MyStockIQ.SharedStore.Program
/-!
# Programs on a part of the store

A store may hold another one, which programs of its own run on. `Prog.lift` lets
such a program run where the whole store is: each of its statements changes the
part, and the rest stays as it was. Its exceptions are renamed on the way.
-/

namespace SharedStore

/-- A store `S'` that holds a store `S`. -/
structure Part (S' S : Type) where
  get : S' → S
  set : S' → S → S'
  get_set : ∀ s' s, get (set s' s) = s
  set_set : ∀ s' s t, set (set s' s) t = set s' t
  set_get : ∀ s', set s' (get s') = s'

namespace Prog

variable {L L' S S' ε ε' α : Type}

def lift (part : Part S' S) (embed : L → L') (wrap : ε → ε') : Prog L S ε α → Prog L' S' ε' α
  | ret a => ret a
  | raise e => raise (wrap e)
  | step l k => step (embed l) fun s' => (k (part.get s')).lift part embed wrap

section
variable (part : Part S' S) (embed : L → L') (wrap : ε → ε')

/-- Alone, it does to the part what it does to a store of its own. -/
theorem run_lift {eff : S → L → S} {eff' : S' → L' → S'}
    (h : ∀ s' l, eff' s' (embed l) = part.set s' (eff (part.get s') l)) (p : Prog L S ε α) (s' : S') :
    (p.lift part embed wrap).run eff' s' =
      ((p.run eff (part.get s')).1.mapError wrap, part.set s' (p.run eff (part.get s')).2) := by
  induction p generalizing s' with
  | ret a => simp [lift, part.set_get, Except.mapError]
  | raise e => simp [lift, part.set_get, Except.mapError]
  | step l k ih =>
    rw [lift, run_step, ih, h, part.get_set, part.set_set]
    rfl

/-- It issues what the program issues, as statements of the whole. -/
theorem Only.lift {A : L' → Prop} {p : Prog L S ε α} (h : p.Only fun l => A (embed l)) :
    (p.lift part embed wrap).Only A := by
  induction p with
  | ret a => trivial
  | raise e => trivial
  | step l k ih => exact ⟨h.1, fun s' => ih (part.get s') (h.2 (part.get s'))⟩

/-- It issues statements of the part only. -/
theorem only_lift {A : L' → Prop} (h : ∀ l, A (embed l)) (p : Prog L S ε α) : (p.lift part embed wrap).Only A :=
  .lift part embed wrap (p.only_true.mono fun l _ => h l)

end
end Prog
end SharedStore
