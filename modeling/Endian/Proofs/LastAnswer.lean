/-!
# The last answer of a list

Where later steps hide earlier ones, a question to a list of steps is answered by the last step
that has an answer; `lastSome?` looks for it from the end. `view_foldl` says that a fold shows this
answer if every single step shows its own, or what was there before it where it has none.
-/

namespace Endian

variable {α β σ : Type}

/-- The answer of the last element that has one. -/
def lastSome? (f : α → Option β) (l : List α) : Option β := l.reverse.findSome? f

theorem lastSome?_cons (f : α → Option β) (a : α) (l : List α) :
    lastSome? f (a :: l) = (lastSome? f l).or (f a) := by
  rw [lastSome?, List.reverse_cons, List.findSome?_append, List.findSome?_singleton, lastSome?]

theorem lastSome?_eq_none_iff {f : α → Option β} {l : List α} :
    lastSome? f l = none ↔ ∀ a ∈ l, f a = none := by
  rw [lastSome?, List.findSome?_eq_none_iff]
  simp only [List.mem_reverse]

theorem exists_of_lastSome? {f : α → Option β} {l : List α} {b : β} (h : lastSome? f l = some b) :
    ∃ a ∈ l, f a = some b := by
  obtain ⟨a, ha, hb⟩ := List.exists_of_findSome?_eq_some h
  exact ⟨a, List.mem_reverse.1 ha, hb⟩

theorem view_foldl {step : σ → α → σ} (view : σ → β) {f : α → Option β}
    (h : ∀ s a, view (step s a) = (f a).getD (view s)) (l : List α) (s : σ) :
    view (l.foldl step s) = (lastSome? f l).getD (view s) := by
  induction l generalizing s with
  | nil => rfl
  | cons a l ih =>
    rw [List.foldl_cons, ih, h, lastSome?_cons]
    cases lastSome? f l with
    | none => rfl
    | some b => rfl

end Endian
