/-!
# Proofs/Replacing — one of many is replaced

Whoever takes a step is replaced in the list of all participants. How many there are of a kind then
changes by the one who took the step (`countP_set_add`), so does what all of them have together
(`flatMap_set_perm`), and anybody else is as before (`getElem?_set_cases`).
-/

namespace Muster

variable {α β : Type} {l : List α} {i j : Nat} {x y z : α}

/-- **Replacing an element changes how many there are of a kind by that element.** -/
theorem countP_set_add (hx : l[i]? = some x) (y : α) (f : α → Bool) :
    (l.set i y).countP f + (f x).toNat = l.countP f + (f y).toNat := by
  obtain ⟨hi, rfl⟩ := List.getElem?_eq_some_iff.1 hx
  have hpos : f l[i] = true → 0 < l.countP f := fun hf =>
    List.countP_pos_iff.2 ⟨_, List.getElem_mem hi, hf⟩
  rw [List.countP_set hi]
  generalize f y = b
  cases hf : f l[i] with
  | false => cases b <;> simp
  | true =>
    have := hpos hf
    cases b <;> simp <;> omega

/-- **Replacing an element changes what all have together by what that element has.** -/
theorem flatMap_set_perm (hx : l[i]? = some x) (y : α) (f : α → List β) :
    (f x ++ (l.set i y).flatMap f).Perm (f y ++ l.flatMap f) := by
  induction l generalizing i with
  | nil => cases hx
  | cons a l ih =>
    cases i with
    | zero =>
      obtain rfl : a = x := Option.some.inj hx
      simpa using List.perm_append_comm_assoc (f a) (f y) (l.flatMap f)
    | succ i =>
      rw [List.set_cons_succ, List.flatMap_cons, List.flatMap_cons]
      refine (List.perm_append_comm_assoc _ _ _).trans ?_
      exact ((ih hx).append_left _).trans (List.perm_append_comm_assoc _ _ _)

/-- **After a replacement an element is the new one, or one of the others as before.** -/
theorem getElem?_set_cases (hx : l[i]? = some x) (hz : (l.set i y)[j]? = some z) :
    (j = i ∧ z = y) ∨ (j ≠ i ∧ l[j]? = some z) := by
  obtain ⟨hi, -⟩ := List.getElem?_eq_some_iff.1 hx
  simp only [List.getElem?_set, hi, if_true] at hz
  split at hz
  · rename_i hij
    exact Or.inl ⟨hij.symm, (Option.some.inj hz).symm⟩
  · exact Or.inr ⟨Ne.symm ‹_›, hz⟩

end Muster
