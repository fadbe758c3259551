import Std.Data.String.ToInt
import PlantEconomics.Proofs.Market.PriceMaps

/-!
# How periods are written

A period is written behind a name: its hour, its day and its year in brackets, as far as it has
them. So the hour of a day may look like the hour of a year. But the periods of a model all have a
day, or all have none, and then they look different. And since there is no bracket inside a key, the
name in front of it ends at the last bracket that opens, whatever the name is.

  * `PeriodKey.text_inj`: keys are told apart by their texts if both have a day, or none has;
  * `PeriodKey.append_text_inj`: a name is told from the key behind it;
  * `IndexSets.name_key_inj`: so both are read off the text of a name and a period of a model.
-/

namespace PlantEconomics

/-! ## §1. Numbers in writing -/

theorem isDigit_of_mem_toString {n : Nat} {c : Char} (h : c ∈ (toString n).toList) :
    c.isDigit = true := by
  rw [Nat.toString_eq_repr, Nat.toList_repr] at h
  exact Nat.isDigit_of_mem_toDigits (by decide) (by decide) h

theorem isDigit_or_sign_of_mem_toString {z : Int} {c : Char} (h : c ∈ (toString z).toList) :
    c.isDigit = true ∨ c = '-' := by
  rw [Int.toString_eq_repr, Int.repr_eq_if] at h
  split at h
  · exact .inl (isDigit_of_mem_toString h)
  · rw [String.toList_append, List.mem_append] at h
    rcases h with sign | digit
    · exact .inr (List.mem_singleton.1 sign)
    · exact .inl (isDigit_of_mem_toString digit)

/-- What stands behind the last place of an element is told from what stands in front of it. -/
theorem append_cons_inj_of_not_mem {β : Type} {x : β} {a b r s : List β} (hr : x ∉ r) (hs : x ∉ s)
    (h : a ++ x :: r = b ++ x :: s) : a = b ∧ r = s := by
  rcases List.append_eq_append_iff.1 h with ⟨c, rfl, rest⟩ | ⟨c, rfl, rest⟩
  · cases c with
    | nil => simpa using rest
    | cons y c =>
      obtain ⟨-, rfl⟩ := List.cons.inj rest
      exact absurd (by simp) hr
  · cases c with
    | nil => simpa [eq_comm] using rest
    | cons y c =>
      obtain ⟨-, rfl⟩ := List.cons.inj rest
      exact absurd (by simp) hs

/-- There is nothing between separators but the elements of the lists. -/
theorem mem_of_mem_intercalate {β : Type} {x c : β} {ls : List (List β)}
    (h : c ∈ [x].intercalate ls) : c = x ∨ ∃ l ∈ ls, c ∈ l := by
  induction ls with
  | nil => exact absurd h List.not_mem_nil
  | cons l ls ih =>
    cases ls with
    | nil => exact .inr ⟨l, List.mem_singleton_self l, by simpa [List.intercalate] using h⟩
    | cons l' ls =>
      have parted : c ∈ l ∨ c = x ∨ c ∈ [x].intercalate (l' :: ls) := by
        simpa [List.intercalate] using h
      rcases parted with here | between | later
      · exact .inr ⟨l, List.mem_cons_self, here⟩
      · exact .inl between
      · exact (ih later).imp_right fun ⟨m, hm, hc⟩ => ⟨m, List.mem_cons_of_mem l hm, hc⟩

theorem toList_injective {β : Type} : Function.Injective (Option.toList : Option β → List β) := by
  intro o o' h
  cases o <;> cases o' <;> simp_all

/-! ## §2. Keys in writing -/

namespace PeriodKey

/-- The hour, the day and the year of a key in writing, as far as it has them. -/
def parts (k : PeriodKey) : List String :=
  toString k.hour :: (k.day.toList.map toString ++ k.year.toList.map toString)

/-- Digits and signs are all there is in the parts. -/
theorem isDigit_or_sign_of_mem_parts {k : PeriodKey} {part : String} (hpart : part ∈ k.parts)
    {c : Char} (hc : c ∈ part.toList) : c.isDigit = true ∨ c = '-' := by
  simp only [parts, List.mem_append, List.mem_cons, List.mem_map] at hpart
  rcases hpart with rfl | ⟨d, -, rfl⟩ | ⟨y, -, rfl⟩
  · exact .inl (isDigit_of_mem_toString hc)
  · exact .inl (isDigit_of_mem_toString hc)
  · exact isDigit_or_sign_of_mem_toString hc

theorem toList_text (k : PeriodKey) :
    k.text.toList = '[' :: ([','].intercalate (k.parts.map String.toList) ++ [']']) := by
  obtain ⟨year, day, hour⟩ := k
  cases year <;> cases day <;> simp [text, parts, toString]

theorem parts_inj {k k' : PeriodKey} (h : k.text = k'.text) : k.parts = k'.parts := by
  have plain (k : PeriodKey) : ∀ part ∈ k.parts.map String.toList, ',' ∉ part := by
    refine List.forall_mem_map.2 fun part hpart hc => ?_
    exact absurd (isDigit_or_sign_of_mem_parts hpart hc) (by decide)
  have some_part (k : PeriodKey) : k.parts.map String.toList ≠ [] := List.cons_ne_nil _ _
  have between : [','].intercalate (k.parts.map String.toList) =
      [','].intercalate (k'.parts.map String.toList) := by
    have same := congrArg String.toList h
    rw [toList_text, toList_text] at same
    exact List.append_cancel_right (List.cons.inj same).2
  -- the commas separate the parts again
  have split := congrArg (List.splitOn ',') between
  rw [List.splitOn_intercalate ',' (plain k) (some_part k),
    List.splitOn_intercalate ',' (plain k') (some_part k')] at split
  exact List.map_injective_iff.2 (fun _ _ => String.toList_injective) split

/-- Keys that both have a day, or both have none, are told apart by their texts. -/
theorem text_inj {k k' : PeriodKey} (days : k.day.isSome = k'.day.isSome)
    (h : k.text = k'.text) : k = k' := by
  obtain ⟨hour, rest⟩ := List.cons.inj (parts_inj h)
  have long : (k.day.toList.map toString).length = (k'.day.toList.map toString).length := by
    rw [List.length_map, List.length_map, Option.length_toList, Option.length_toList, days]
  obtain ⟨day, year⟩ := List.append_inj rest long
  have naturals : Function.Injective (toString : Nat → String) := fun _ _ => Nat.repr_inj.1
  have integers : Function.Injective (toString : Int → String) := fun _ _ => Int.repr_inj.1
  have same_day := toList_injective (List.map_injective_iff.2 naturals day)
  have same_year := toList_injective (List.map_injective_iff.2 integers year)
  have same_hour := naturals hour
  cases k
  cases k'
  simp_all

/-- The last bracket that opens is where a name ends and a key begins. -/
theorem append_text_inj {name name' : String} {k k' : PeriodKey}
    (h : name ++ k.text = name' ++ k'.text) : name = name' ∧ k.text = k'.text := by
  have inside (k : PeriodKey) :
      '[' ∉ [','].intercalate (k.parts.map String.toList) ++ [']'] := by
    rw [List.mem_append, not_or]
    refine ⟨fun opened => ?_, by decide⟩
    rcases mem_of_mem_intercalate opened with comma | ⟨l, hl, hc⟩
    · exact absurd comma (by decide)
    · obtain ⟨part, hpart, rfl⟩ := List.mem_map.1 hl
      exact absurd (isDigit_or_sign_of_mem_parts hpart hc) (by decide)
  have same := congrArg String.toList h
  rw [String.toList_append, String.toList_append, toList_text, toList_text] at same
  obtain ⟨front, back⟩ := append_cons_inj_of_not_mem (inside k) (inside k') same
  refine ⟨String.toList_injective front, String.toList_injective ?_⟩
  rw [toList_text, toList_text, back]

end PeriodKey

/-! ## §3. Periods of a model -/

namespace IndexSets

theorem isSome_of_mem_choices {β : Type} {o : Option (List β)} {x : Option β}
    (h : x ∈ choices o) : x.isSome = o.isSome := by
  cases o with
  | none =>
    rw [List.mem_singleton.1 h]
    rfl
  | some xs =>
    obtain ⟨y, -, rfl⟩ := List.mem_map.1 h
    rfl

/-- Behind names, the periods of a model are told apart, and so are the names. -/
theorem name_key_inj {s : IndexSets} {k k' : PeriodKey} (hk : k ∈ s.periods)
    (hk' : k' ∈ s.periods) {name name' : String} (h : name ++ k.text = name' ++ k'.text) :
    name = name' ∧ k = k' := by
  obtain ⟨front, back⟩ := PeriodKey.append_text_inj h
  have days : k.day.isSome = k'.day.isSome := by
    rw [isSome_of_mem_choices (mem_periods.1 hk).2.1, isSome_of_mem_choices (mem_periods.1 hk').2.1]
  exact ⟨front, PeriodKey.text_inj days back⟩

end IndexSets

end PlantEconomics
