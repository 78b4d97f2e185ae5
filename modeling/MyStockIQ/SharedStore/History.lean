import Mathlib.Data.List.Induction
/-!
# The last event of a log

A log is the list of what happened, the oldest first. `Last about log e`: of the
events of the log that `about` holds of, `e` is the last. A log grows at its
end: an event that is about the matter becomes the last one
(`last_append_of`), and any other leaves the last one as it was
(`last_append_of_not`).
-/

namespace SharedStore

variable {E : Type}

/-- `e` is the last event of the log that `about` holds of. -/
def Last (about : E → Prop) (log : List E) (e : E) : Prop :=
  ∃ before after, log = before ++ e :: after ∧ about e ∧ ∀ e' ∈ after, ¬about e'

variable {about : E → Prop} {log : List E} {e e' : E}

theorem not_last_nil : ¬Last about [] e := by
  rintro ⟨before, after, h, -, -⟩
  simp at h

theorem last_append_of (h : about e) : Last about (log ++ [e]) e' ↔ e' = e := by
  constructor
  · rintro ⟨before, after, heq, -, hafter⟩
    rcases List.eq_nil_or_concat after with rfl | ⟨after, e₀, rfl⟩
    · obtain ⟨-, hlast⟩ := List.append_inj' heq rfl
      exact (List.singleton_inj.1 hlast).symm
    · rw [List.concat_eq_append, ← List.cons_append, ← List.append_assoc] at heq
      obtain ⟨-, hlast⟩ := List.append_inj' heq rfl
      obtain rfl := List.singleton_inj.1 hlast
      exact absurd h (hafter e (by simp))
  · rintro rfl
    exact ⟨log, [], rfl, h, by simp⟩

theorem last_append_of_not (h : ¬about e) : Last about (log ++ [e]) e' ↔ Last about log e' := by
  constructor
  · rintro ⟨before, after, heq, habout, hafter⟩
    rcases List.eq_nil_or_concat after with rfl | ⟨after, e₀, rfl⟩
    · obtain ⟨-, hlast⟩ := List.append_inj' heq rfl
      obtain rfl := List.singleton_inj.1 hlast
      exact absurd habout h
    · rw [List.concat_eq_append, ← List.cons_append, ← List.append_assoc] at heq
      obtain ⟨hlog, -⟩ := List.append_inj' heq rfl
      exact ⟨before, after, hlog, habout, fun e₁ he₁ => hafter e₁ (by simp [he₁])⟩
  · rintro ⟨before, after, rfl, habout, hafter⟩
    refine ⟨before, after ++ [e], by simp, habout, ?_⟩
    intro e₁ he₁
    rcases List.mem_append.1 he₁ with he₁ | he₁
    · exact hafter e₁ he₁
    · rw [List.mem_singleton.1 he₁]
      exact h

/-- There is one last event at most. -/
theorem Last.unique (h : Last about log e) (h' : Last about log e') : e = e' := by
  induction log using List.reverseRecOn with
  | nil => exact absurd h not_last_nil
  | append_singleton log e₀ ih =>
    by_cases h₀ : about e₀
    · rw [last_append_of h₀] at h h'
      rw [h, h']
    · rw [last_append_of_not h₀] at h h'
      exact ih h h'

end SharedStore
