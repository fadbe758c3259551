import PlantEconomics.Text.Blank
import Mathlib.Data.List.TakeWhile

/-!
# What trimming does

Only the ends of a list are looked at: elements that are trimmed anyway may be there or not, and
may have been trimmed before. Where every element stands for some others that are all trimmed or
all kept, these are trimmed as the elements are.
-/

namespace PlantEconomics

namespace Text

variable {β γ : Type} {p q : β → Bool}

/-! ## §1. Trimming twice -/

theorem trimBy_append_left {l : List β} (hl : ∀ a ∈ l, p a = true) (xs : List β) :
    trimBy p (l ++ xs) = trimBy p xs := by
  unfold trimBy
  rw [List.dropWhile_append_of_pos hl]

theorem trimBy_append_right {r : List β} (hr : ∀ a ∈ r, p a = true) (xs : List β) :
    trimBy p (xs ++ r) = trimBy p xs := by
  have reversed : ∀ a ∈ r.reverse, p a = true := fun a ha => hr a (List.mem_reverse.1 ha)
  unfold trimBy
  rw [List.dropWhile_append]
  split
  · next nothing =>
    rw [List.isEmpty_iff.1 nothing, List.dropWhile_eq_nil_iff.2 hr]
  · rw [List.reverse_append, List.dropWhile_append_of_pos reversed]

/-- A list is what trimming leaves of it between two ends that it takes away. -/
theorem exists_eq_append_trimBy (q : β → Bool) (xs : List β) :
    ∃ l r, xs = l ++ trimBy q xs ++ r ∧ (∀ a ∈ l, q a = true) ∧ ∀ a ∈ r, q a = true := by
  have back := List.takeWhile_append_dropWhile (p := q) (l := (xs.dropWhile q).reverse)
  refine ⟨xs.takeWhile q, ((xs.dropWhile q).reverse.takeWhile q).reverse, ?_,
    fun a => List.mem_takeWhile_imp, fun a ha => List.mem_takeWhile_imp (List.mem_reverse.1 ha)⟩
  unfold trimBy
  rw [List.append_assoc, ← List.reverse_append, back, List.reverse_reverse,
    List.takeWhile_append_dropWhile]

/-- Trimming fewer elements before changes nothing. -/
theorem trimBy_trimBy (h : ∀ a, q a = true → p a = true) (xs : List β) :
    trimBy p (trimBy q xs) = trimBy p xs := by
  obtain ⟨l, r, whole, hl, hr⟩ := exists_eq_append_trimBy q xs
  calc trimBy p (trimBy q xs) = trimBy p (l ++ trimBy q xs ++ r) := by
        rw [trimBy_append_right fun a ha => h a (hr a ha),
          trimBy_append_left fun a ha => h a (hl a ha)]
    _ = trimBy p xs := by rw [← whole]

/-! ## §2. Trimming what elements stand for -/

theorem dropWhile_flatMap {f : γ → List β} {q : γ → Bool} (alike : ∀ a, ∀ b ∈ f a, p b = q a)
    (nonempty : ∀ a, f a ≠ []) (xs : List γ) :
    (xs.flatMap f).dropWhile p = (xs.dropWhile q).flatMap f := by
  induction xs with
  | nil => rfl
  | cons a xs ih =>
    rw [List.flatMap_cons]
    cases hq : q a with
    | true =>
      rw [List.dropWhile_append_of_pos fun b hb => (alike a b hb).trans hq, ih,
        List.dropWhile_cons_of_pos hq]
    | false =>
      rw [List.dropWhile_cons_of_neg (by simp [hq]), List.flatMap_cons]
      cases hf : f a with
      | nil => exact absurd hf (nonempty a)
      | cons b rest =>
        have : p b = false := (alike a b (hf ▸ List.mem_cons_self)).trans hq
        rw [List.cons_append, List.dropWhile_cons_of_neg (by simp [this])]

theorem trimBy_flatMap {f : γ → List β} {q : γ → Bool} (alike : ∀ a, ∀ b ∈ f a, p b = q a)
    (nonempty : ∀ a, f a ≠ []) (xs : List γ) :
    trimBy p (xs.flatMap f) = (trimBy q xs).flatMap f := by
  have backwards : ∀ a, ∀ b ∈ (List.reverse ∘ f) a, p b = q a := fun a b hb =>
    alike a b (List.mem_reverse.1 hb)
  unfold trimBy
  rw [dropWhile_flatMap alike nonempty, List.reverse_flatMap,
    dropWhile_flatMap backwards fun a => by simpa using nonempty a, List.reverse_flatMap]
  congr 1
  funext a
  exact List.reverse_reverse (f a)

end Text

end PlantEconomics
