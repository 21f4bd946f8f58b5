import Mathlib.Data.List.Basic

/-!
Moments of a history: an entry, with what came before it and what came after it.
-/

namespace BuildWatch

variable {α : Type}

/-- A moment of a history that grew by one entry is its last moment, or was there before. -/
theorem split_concat {history before after : List α} {last entry : α}
    (hSplit : history ++ [last] = before ++ entry :: after) :
    (after = [] ∧ before = history ∧ entry = last) ∨
      ∃ rest, after = rest ++ [last] ∧ history = before ++ entry :: rest := by
  rcases List.eq_nil_or_concat after with hNone | ⟨rest, other, hConcat⟩
  · subst hNone
    obtain ⟨hBefore, hLast⟩ := List.append_inj' hSplit rfl
    exact Or.inl ⟨rfl, hBefore.symm, (List.cons.inj hLast).1.symm⟩
  · subst hConcat
    rw [List.concat_eq_append, ← List.cons_append, ← List.append_assoc] at hSplit
    obtain ⟨hHistory, hLast⟩ := List.append_inj' hSplit rfl
    exact Or.inr ⟨rest, by rw [List.concat_eq_append, (List.cons.inj hLast).1], hHistory⟩

end BuildWatch
