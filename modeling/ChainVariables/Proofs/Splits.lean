/-! # Splits of lists

What is shown of all runs is shown for one more call at the end of a run. Where it
speaks of a call in the run, that is the last one or was in the run before
(`ChainVariables.split_concat`). A list that is made of two parts with a mark
between them tells the parts, unless a mark occurs in them too
(`ChainVariables.split_mark`).
-/

namespace ChainVariables

universe u

variable {α : Type u}

/-- An item of a list with one more item at its end is the last one or is one of the others. -/
theorem split_concat {items before after : List α} {last item : α}
    (split : items ++ [last] = before ++ item :: after) :
    (items = before ∧ last = item ∧ after = []) ∨
      ∃ rest, items = before ++ item :: rest ∧ after = rest ++ [last] := by
  rcases List.eq_nil_or_concat after with rfl | ⟨rest, final, rfl⟩
  · obtain ⟨rfl, same⟩ := List.append_inj' split rfl
    cases same
    exact .inl ⟨rfl, rfl, rfl⟩
  · rw [List.concat_eq_append, ← List.cons_append, ← List.append_assoc] at split
    obtain ⟨rfl, same⟩ := List.append_inj' split rfl
    cases same
    exact .inr ⟨rest, rfl, List.concat_eq_append⟩

/-- A list is split at each of its places. -/
theorem split_of_getElem? {items : List α} {place : Nat} {item : α}
    (found : items[place]? = some item) :
    ∃ before after, items = before ++ item :: after ∧ before.length = place := by
  obtain ⟨inside, rfl⟩ := List.getElem?_eq_some_iff.mp found
  refine ⟨items.take place, items.drop (place + 1), by simp, ?_⟩
  rw [List.length_take]
  omega

/-- A list split at a mark in two ways is split at the same place, or in one of the ways at a later
mark. -/
theorem split_mark {left right left' right' : List α} {mark : α}
    (same : left ++ mark :: right = left' ++ mark :: right') :
    (left = left' ∧ right = right') ∨
      (∃ middle, left' = left ++ mark :: middle ∧ right = middle ++ mark :: right') ∨
      ∃ middle, left = left' ++ mark :: middle ∧ right' = middle ++ mark :: right := by
  rcases List.append_eq_append_iff.mp same with ⟨between, rfl, rest⟩ | ⟨between, rfl, rest⟩
  · cases between with
    | nil =>
        cases rest
        exact .inl ⟨(List.append_nil left).symm, rfl⟩
    | cons head middle =>
        obtain ⟨rfl, tails⟩ := List.cons.inj rest
        exact .inr (.inl ⟨middle, rfl, tails⟩)
  · cases between with
    | nil =>
        cases rest
        exact .inl ⟨List.append_nil left', rfl⟩
    | cons head middle =>
        obtain ⟨rfl, tails⟩ := List.cons.inj rest
        exact .inr (.inr ⟨middle, rfl, tails⟩)

/-- Parts without the mark are told by their split at it. -/
theorem split_mark_of_notMem {left right left' right' : List α} {mark : α} (absent : mark ∉ left)
    (absent' : mark ∉ left') (same : left ++ mark :: right = left' ++ mark :: right') :
    left = left' ∧ right = right' := by
  rcases split_mark same with equal | ⟨middle, rfl, _⟩ | ⟨middle, rfl, _⟩
  · exact equal
  · exact absurd (List.mem_append_right _ List.mem_cons_self) absent'
  · exact absurd (List.mem_append_right _ List.mem_cons_self) absent

end ChainVariables
