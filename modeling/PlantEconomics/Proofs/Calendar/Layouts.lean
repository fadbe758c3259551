import Mathlib.Algebra.Ring.Nat
import Mathlib.Data.List.TakeWhile
import PlantEconomics.Calendar.Layout
import PlantEconomics.Proofs.Calendar.Moments

/-!
# Written moments are read in one way

Fields and gaps take digits, blanks and signs and nothing else, however many of them. So the marks of
a layout that are none of these stand in every text that follows it, as often as in the layout, and
the known layouts are told apart by them: by two colons or one, by the slashes, by the letter. A text
therefore follows one of them at most, and it does not matter in which order they are tried.

A moment that is written in a layout is read in it, as every field is written with as many digits as
reading it takes. What the layout does not write is read as zero.

  * `count_of_readInto?`: the marks of a text that follows a layout;
  * `eq_of_read?`: at most one known layout is followed;
  * `readInto?_write`: what is written is read;
  * `unambiguous_and_complete` is about the reading of moments.
-/

namespace PlantEconomics

namespace Layout

/-! ## §1. Reading part by part -/

/-- Read one part into the fields of `t`; what is left of the text comes with it. -/
def readPart? (t : DateTime) : Part → List Char → Option (DateTime × List Char)
  | .year, cs => (takeYear? cs).map fun (n, rest) => ({ t with year := n }, rest)
  | .month, cs => (takeField? cs).map fun (n, rest) => ({ t with month := n }, rest)
  | .day, cs => (takeField? cs).map fun (n, rest) => ({ t with day := n }, rest)
  | .hour, cs => (takeField? cs).map fun (n, rest) => ({ t with hour := n }, rest)
  | .minute, cs => (takeField? cs).map fun (n, rest) => ({ t with minute := n }, rest)
  | .second, cs => (takeField? cs).map fun (n, rest) => ({ t with second := n }, rest)
  | .gap, cs => some (t, cs.dropWhile Text.isBlank)
  | .mark _, [] => none
  | .mark m, c :: cs => if c = m then some (t, cs) else none

/-- A layout is read part by part. -/
theorem readInto?_cons (t : DateTime) (part : Part) (parts : Layout) (cs : List Char) :
    readInto? t (part :: parts) cs =
      (readPart? t part cs).bind fun p => readInto? p.1 parts p.2 := by
  cases part with
  | year | month | day | hour | minute | second =>
    rw [readInto?, readPart?, Option.bind_map]
    rfl
  | gap => rfl
  | mark m =>
    cases cs with
    | nil => rfl
    | cons c cs =>
      rw [readInto?, readPart?]
      split <;> rfl

/-- What is left of the text does not depend on what becomes of the number that was read. -/
theorem exists_of_map {β γ : Type} {f : β × List Char → γ × List Char}
    {read : Option (β × List Char)} {c : γ} {rest : List Char}
    (h : read.map f = some (c, rest)) (keeps : ∀ p, (f p).2 = p.2) :
    ∃ b, read = some (b, rest) := by
  obtain ⟨⟨b, r⟩, reads, same⟩ := Option.map_eq_some_iff.1 h
  have left : (f (b, r)).2 = r := keeps (b, r)
  rw [same] at left
  exact ⟨b, by rw [reads, ← left]⟩

/-! ## §2. Marks -/

/-- Whether a field or a gap may take a character. -/
def isTaken (c : Char) : Bool := c.isDigit || Text.isBlank c || c == '-' || c == '+'

/-- Whether a text is another one behind characters that fields and gaps may take. -/
def Takes (cs rest : List Char) : Prop :=
  ∃ front, cs = front ++ rest ∧ ∀ c ∈ front, isTaken c = true

namespace Takes

variable {cs rest rest' : List Char}

theorem cons {c : Char} (hc : isTaken c = true) (h : Takes cs rest) : Takes (c :: cs) rest := by
  obtain ⟨front, rfl, taken⟩ := h
  exact ⟨c :: front, rfl, List.forall_mem_cons.2 ⟨hc, taken⟩⟩

theorem trans (h : Takes cs rest) (h' : Takes rest rest') : Takes cs rest' := by
  obtain ⟨front, rfl, taken⟩ := h
  obtain ⟨front', rfl, taken'⟩ := h'
  refine ⟨front ++ front', (List.append_assoc ..).symm, fun c hc => ?_⟩
  exact (List.mem_append.1 hc).elim (taken c) (taken' c)

/-- What cannot be taken stays. -/
theorem count_eq {m : Char} (hm : isTaken m = false) (h : Takes cs rest) :
    cs.count m = rest.count m := by
  obtain ⟨front, rfl, taken⟩ := h
  have none : front.count m = 0 := by
    refine List.count_eq_zero.2 fun member => ?_
    rw [taken m member] at hm
    cases hm
  rw [List.count_append, none, Nat.zero_add]

theorem blanks (cs : List Char) : Takes cs (cs.dropWhile Text.isBlank) := by
  refine ⟨cs.takeWhile Text.isBlank, List.takeWhile_append_dropWhile.symm, fun c hc => ?_⟩
  have blank : Text.isBlank c = true := List.mem_takeWhile_imp hc
  simp [isTaken, blank]

theorem digits {width n : Nat} (h : takeDigits? width cs = some (n, rest)) : Takes cs rest := by
  simp only [takeDigits?] at h
  split at h
  · cases h
  · obtain ⟨-, rfl⟩ := Prod.mk.inj (Option.some.inj h)
    -- the digits are a front of the first characters, so of the text
    have front : (cs.take width).takeWhile Char.isDigit <+: cs :=
      (List.takeWhile_prefix _).trans (List.take_prefix _ _)
    refine ⟨_, (List.prefix_iff_eq_append.1 front).symm, fun c hc => ?_⟩
    have digit : c.isDigit = true := List.mem_takeWhile_imp hc
    simp [isTaken, digit]

theorem field {n : Nat} (h : takeField? cs = some (n, rest)) : Takes cs rest :=
  (blanks cs).trans (digits h)

theorem year {n : Int} (h : takeYear? cs = some (n, rest)) : Takes cs rest := by
  refine (blanks cs).trans ?_
  unfold takeYear? at h
  split at h
  · next signed =>
    obtain ⟨k, taken⟩ := exists_of_map h fun _ => rfl
    rw [signed]
    exact (digits taken).cons rfl
  · next signed =>
    obtain ⟨k, taken⟩ := exists_of_map h fun _ => rfl
    rw [signed]
    exact (digits taken).cons rfl
  · obtain ⟨k, taken⟩ := exists_of_map h fun _ => rfl
    exact digits taken

end Takes

/-- Reading a part takes the mark that it is, and no mark otherwise. -/
theorem count_of_readPart? {m : Char} (hm : isTaken m = false) {t t' : DateTime} {part : Part}
    {cs rest : List Char} (h : readPart? t part cs = some (t', rest)) :
    cs.count m = [part].count (.mark m) + rest.count m := by
  have of_takes (taken : Takes cs rest) (other : ∀ c, part ≠ .mark c) :
      cs.count m = [part].count (.mark m) + rest.count m := by
    rw [taken.count_eq hm, List.count_singleton, if_neg (by simpa using other m), Nat.zero_add]
  cases part with
  | year =>
    obtain ⟨n, taken⟩ := exists_of_map h fun _ => rfl
    exact of_takes (.year taken) fun c other => nomatch other
  | month | day | hour | minute | second =>
    obtain ⟨n, taken⟩ := exists_of_map h fun _ => rfl
    exact of_takes (.field taken) fun c other => nomatch other
  | gap =>
    obtain ⟨-, rfl⟩ := Prod.mk.inj (Option.some.inj h)
    exact of_takes (.blanks cs) fun c other => nomatch other
  | mark c =>
    cases cs with
    | nil => cases h
    | cons d cs =>
      simp only [readPart?] at h
      split at h
      · next same =>
        obtain ⟨-, rfl⟩ := Prod.mk.inj (Option.some.inj h)
        rw [same, List.count_cons, List.count_singleton, Nat.add_comm]
        simp
      · cases h

/-- **The marks of a text that follows a layout** are those of the layout. -/
theorem count_of_readInto? {m : Char} (hm : isTaken m = false) {parts : Layout} {t r : DateTime}
    {cs : List Char} (h : readInto? t parts cs = some r) :
    cs.count m = parts.count (.mark m) := by
  -- over the layout; which fields have been read so far does not matter
  induction parts generalizing t cs with
  | nil =>
    cases cs with
    | nil => rfl
    | cons c cs => cases h
  | cons part parts ih =>
    rw [readInto?_cons] at h
    obtain ⟨⟨t', rest⟩, first, others⟩ := Option.bind_eq_some_iff.1 h
    rw [count_of_readPart? hm first, ih others, ← List.count_append]
    rfl

theorem exists_readInto?_of_read? {l : Layout} {cs : List Char} {t : DateTime}
    (h : l.read? cs = some t) : readInto? ⟨0, 0, 0, 0, 0, 0⟩ l cs = some t ∧ t.exists? = true := by
  unfold read? at h
  split at h
  · next r reads =>
    split at h
    · next exists_ =>
      obtain rfl := Option.some.inj h
      exact ⟨reads, exists_⟩
    · cases h
  · cases h

/-- The known layouts differ in how many colons, slashes and letters there are. -/
theorem eq_of_same_marks :
    ∀ l ∈ known, ∀ l' ∈ known, l.count (.mark ':') = l'.count (.mark ':') →
      l.count (.mark '/') = l'.count (.mark '/') → l.count (.mark 'T') = l'.count (.mark 'T') →
      l = l' := by
  decide

/-- **A text follows at most one known layout.** -/
theorem eq_of_read? {l l' : Layout} (hl : l ∈ known) (hl' : l' ∈ known) {cs : List Char}
    {t t' : DateTime} (h : l.read? cs = some t) (h' : l'.read? cs = some t') : l = l' := by
  -- both have the marks of the text
  have same (m : Char) (mark : isTaken m = false) : l.count (.mark m) = l'.count (.mark m) := by
    rw [← count_of_readInto? mark (exists_readInto?_of_read? h).1,
      ← count_of_readInto? mark (exists_readInto?_of_read? h').1]
  exact eq_of_same_marks l hl l' hl' (same ':' rfl) (same '/' rfl) (same 'T' rfl)

/-! ## §3. Digits -/

section Padded

variable {width n : Nat}

theorem length_padded (some_width : 0 < width) (h : n < 10 ^ width) :
    (padded width n).length = width := by
  have digits := (Nat.length_toDigits_le_iff (by decide) some_width).2 h
  simp [padded, digits]

theorem isDigit_of_mem_padded {c : Char} (h : c ∈ padded width n) : c.isDigit = true := by
  rcases List.mem_append.1 h with zero | digit
  · rw [List.eq_of_mem_replicate zero]
    rfl
  · exact Nat.isDigit_of_mem_toDigits (by decide) (by decide) digit

theorem value_padded (width n : Nat) : Digits.value (padded width n) = n := by
  show Nat.ofDigitChars 10 (List.replicate _ '0' ++ Nat.toDigits 10 n) 0 = n
  rw [Nat.ofDigitChars_append, Nat.ofDigitChars_replicate_zero, Nat.mul_zero,
    Nat.ofDigitChars_toDigits (by decide) (by decide)]

theorem exists_padded_eq_cons (width n : Nat) :
    ∃ c cs, padded width n = c :: cs ∧ c.isDigit = true := by
  cases h : padded width n with
  | nil =>
    have digits : Nat.toDigits 10 n = [] := (List.append_eq_nil_iff.1 h).2
    exact absurd digits Nat.toDigits_ne_nil
  | cons c cs => exact ⟨c, cs, rfl, isDigit_of_mem_padded (h ▸ List.mem_cons_self)⟩

/-- As many digits are taken as a number is padded to, whatever stands behind it. -/
theorem takeDigits?_padded (some_width : 0 < width) (h : n < 10 ^ width) (rest : List Char) :
    takeDigits? width (padded width n ++ rest) = some (n, rest) := by
  have length := length_padded some_width h
  have front : (padded width n ++ rest).take width = padded width n := List.take_left' length
  have digits : (padded width n).takeWhile Char.isDigit = padded width n :=
    List.takeWhile_eq_self_iff.2 fun c hc => isDigit_of_mem_padded hc
  have nonempty : (padded width n).isEmpty = false := by
    obtain ⟨c, cs, cons, -⟩ := exists_padded_eq_cons width n
    rw [cons]
    rfl
  simp [takeDigits?, front, digits, nonempty, value_padded]

end Padded

/-- No digit is a blank. -/
theorem not_isBlank_of_isDigit {c : Char} (h : c.isDigit = true) : Text.isBlank c = false := by
  simp only [Char.isDigit, Bool.and_eq_true, decide_eq_true_eq] at h
  have low : 48 ≤ c.toNat := h.1
  have high : c.toNat ≤ 57 := h.2
  simp only [Text.isBlank, Bool.or_eq_false_iff, Bool.and_eq_false_iff, beq_eq_false_iff_ne,
    decide_eq_false_iff_not]
  omega

theorem dropWhile_padded (width n : Nat) (rest : List Char) :
    (padded width n ++ rest).dropWhile Text.isBlank = padded width n ++ rest := by
  obtain ⟨c, cs, cons, digit⟩ := exists_padded_eq_cons width n
  rw [cons, List.cons_append, List.dropWhile_cons_of_neg]
  simp [not_isBlank_of_isDigit digit]

theorem takeField?_padded {n : Nat} (h : n < 100) (rest : List Char) :
    takeField? (padded 2 n ++ rest) = some (n, rest) := by
  unfold takeField?
  rw [dropWhile_padded]
  exact takeDigits?_padded (by decide) h rest

/-- A year of four digits has no sign. -/
theorem takeYear?_padded {n : Nat} (h : n < 10000) (rest : List Char) :
    takeYear? (padded 4 n ++ rest) = some ((n : Int), rest) := by
  have taken := takeDigits?_padded (by decide : 0 < 4) h rest
  have kept := dropWhile_padded 4 n rest
  obtain ⟨c, cs, cons, digit⟩ := exists_padded_eq_cons 4 n
  rw [cons, List.cons_append] at taken kept ⊢
  unfold takeYear?
  rw [kept]
  split
  · next signed =>
    rw [(List.cons.inj signed).1] at digit
    cases digit
  · next signed =>
    rw [(List.cons.inj signed).1] at digit
    cases digit
  · rw [taken]
    rfl

/-! ## §4. Reading what is written -/

/-- The fields of `s`, but the one that a part writes as in `t`. -/
def putPart (t s : DateTime) : Part → DateTime
  | .year => { s with year := t.year }
  | .month => { s with month := t.month }
  | .day => { s with day := t.day }
  | .hour => { s with hour := t.hour }
  | .minute => { s with minute := t.minute }
  | .second => { s with second := t.second }
  | .gap => s
  | .mark _ => s

/-- Whether no blank is written first. -/
def startsDark : Layout → Bool
  | .gap :: _ => false
  | .mark m :: _ => !Text.isBlank m
  | _ => true

/-- Whether every gap ends with its blank. -/
def gapsEnd : Layout → Bool
  | [] => true
  | .gap :: parts => startsDark parts && gapsEnd parts
  | _ :: parts => gapsEnd parts

/-- Whether each field of a moment has room where it is written. -/
structure Fits (t : DateTime) : Prop where
  year_nonneg : 0 ≤ t.year
  year_le : t.year ≤ 9999
  month : t.month < 100
  day : t.day < 100
  hour : t.hour < 100
  minute : t.minute < 100
  second : t.second < 100

theorem fits_of_exists {t : DateTime} (h : t.exists? = true) (nonneg : 0 ≤ t.year)
    (le : t.year ≤ 9999) : Fits t := by
  have months := DateTime.month_le_of_exists h
  have days := DateTime.daysInMonth_le t.year t.month
  simp only [DateTime.exists?, Bool.and_eq_true, decide_eq_true_eq] at h
  constructor <;> omega

/-- What is behind a gap is not taken with it. -/
theorem dropWhile_write {parts : Layout} (dark : startsDark parts = true) (t : DateTime) :
    (write parts t).dropWhile Text.isBlank = write parts t := by
  cases parts with
  | nil => rfl
  | cons part parts =>
    have whole : write (part :: parts) t = writePart t part ++ write parts t := rfl
    cases part with
    | year | month | day | hour | minute | second =>
      rw [whole]
      exact dropWhile_padded _ _ _
    | gap => cases dark
    | mark m =>
      rw [startsDark, Bool.not_eq_true'] at dark
      exact List.dropWhile_cons_of_neg (by simp [dark])

/-- A part that is written is read, and nothing else is taken with it. -/
theorem readPart?_write {t : DateTime} (fits : Fits t) (s : DateTime) {part : Part}
    {parts : Layout} (ends : gapsEnd (part :: parts) = true) :
    readPart? s part (write (part :: parts) t) = some (putPart t s part, write parts t) := by
  have whole : write (part :: parts) t = writePart t part ++ write parts t := rfl
  rw [whole]
  cases part with
  | year =>
    obtain ⟨n, hn⟩ := Int.eq_ofNat_of_zero_le fits.year_nonneg
    have room : n < 10000 := by
      have le := fits.year_le
      omega
    show (takeYear? (padded 4 t.year.toNat ++ write parts t)).map _ = _
    rw [hn, Int.toNat_natCast, takeYear?_padded room, putPart, hn]
    rfl
  | month | day | hour | minute | second =>
    rw [readPart?, writePart, takeField?_padded]
    · rfl
    · -- the bound of the field that is written
      cases fits
      assumption
  | gap =>
    have dark : startsDark parts = true := (Bool.and_eq_true_iff.1 ends).1
    show some (s, (' ' :: write parts t).dropWhile Text.isBlank) = _
    rw [List.dropWhile_cons_of_pos rfl, dropWhile_write dark]
    rfl
  | mark m => exact if_pos rfl

theorem gapsEnd_tail {part : Part} {parts : Layout} (ends : gapsEnd (part :: parts) = true) :
    gapsEnd parts = true := by
  cases part with
  | gap => exact (Bool.and_eq_true_iff.1 ends).2
  | year | month | day | hour | minute | second | mark => exact ends

/-- **What is written is read**, part by part. -/
theorem readInto?_write {t : DateTime} (fits : Fits t) {parts : Layout}
    (ends : gapsEnd parts = true) (s : DateTime) :
    readInto? s parts (write parts t) = some (parts.foldl (putPart t) s) := by
  -- over the layout, for any fields that have been read before
  induction parts generalizing s with
  | nil => rfl
  | cons part parts ih =>
    rw [readInto?_cons, readPart?_write fits s ends]
    exact ih (gapsEnd_tail ends) (putPart t s part)

/-- What a layout writes of a moment: all of it, or all but the seconds. -/
def kept (l : Layout) (t : DateTime) : DateTime :=
  if Part.second ∈ l then t else { t with second := 0 }

theorem exists_kept {t : DateTime} (h : t.exists? = true) (l : Layout) :
    (l.kept t).exists? = true := by
  unfold kept
  split
  · exact h
  · simp only [DateTime.exists?, Bool.and_eq_true, decide_eq_true_eq] at h ⊢
    omega

/-- A moment that is written in a known layout is read in it. -/
theorem read?_write {l : Layout} (hl : l ∈ known) {t : DateTime} (h : t.exists? = true)
    (nonneg : 0 ≤ t.year) (le : t.year ≤ 9999) : l.read? (l.write t) = some (l.kept t) := by
  have ends : gapsEnd l = true := by
    revert l
    decide
  have fields : l.foldl (putPart t) ⟨0, 0, 0, 0, 0, 0⟩ = l.kept t := by
    simp only [known, List.mem_cons, List.not_mem_nil, or_false] at hl
    rcases hl with rfl | rfl | rfl | rfl <;> rfl
  unfold read?
  rw [readInto?_write (fits_of_exists h nonneg le) ends, fields]
  exact if_pos (exists_kept h l)

/-! ## §5. Trying the layouts -/

/-- Where one member at most has a result, any order finds it. -/
theorem findSome?_eq_some_iff_of_unique {β γ : Type} {f : β → Option γ} {xs : List β}
    (unique : ∀ x ∈ xs, ∀ y ∈ xs, ∀ b c, f x = some b → f y = some c → x = y) {c : γ} :
    xs.findSome? f = some c ↔ ∃ x ∈ xs, f x = some c := by
  constructor
  · exact List.exists_of_findSome?_eq_some
  · rintro ⟨x, hx, hc⟩
    cases found : xs.findSome? f with
    | none =>
      rw [List.findSome?_eq_none_iff.1 found x hx] at hc
      cases hc
    | some b =>
      -- what is found is found in the one member that has a result
      obtain ⟨y, hy, hb⟩ := List.exists_of_findSome?_eq_some found
      obtain rfl := unique x hx y hy c b hc hb
      rw [← hb, hc]

/-- What is read does not depend on which of the known layouts is tried first. -/
theorem findSome?_read?_iff {ls : List Layout} (same : ls.Perm known) {cs : List Char}
    {t : DateTime} :
    ls.findSome? (fun l => l.read? cs) = some t ↔ ∃ l ∈ known, l.read? cs = some t := by
  rw [findSome?_eq_some_iff_of_unique]
  · simp only [same.mem_iff]
  · intro l hl l' hl' t t' h h'
    exact eq_of_read? (same.mem_iff.1 hl) (same.mem_iff.1 hl') h h'

end Layout

theorem DateTime.read?_eq_some_iff {text : String} {t : DateTime} :
    DateTime.read? text = some t ↔ ∃ l ∈ Layout.known, l.read? text.toList = some t :=
  Layout.findSome?_read?_iff (List.Perm.refl _)

/-- **Moments are read in one way, and as they were written.** A text follows at most one of the known
layouts, so a moment is read from it whatever the order in which the layouts are tried. A moment of
the years 0 to 9999 that is written in any of them is the moment that is read, without its seconds
where the layout has none. -/
theorem Layout.unambiguous_and_complete :
    (∀ cs, ∀ l ∈ known, ∀ l' ∈ known,
      (l.read? cs).isSome = true → (l'.read? cs).isSome = true → l = l') ∧
    (∀ ls : List Layout, ls.Perm known → ∀ text : String,
      ls.findSome? (fun l => l.read? text.toList) = DateTime.read? text) ∧
    ∀ t : DateTime, t.exists? = true → 0 ≤ t.year → t.year ≤ 9999 → ∀ l ∈ known,
      DateTime.read? (String.ofList (l.write t)) =
        some (if Part.second ∈ l then t else { t with second := 0 }) := by
  refine ⟨fun cs l hl l' hl' h h' => ?_, fun ls same text => ?_, fun t h nonneg le l hl => ?_⟩
  · obtain ⟨t, ht⟩ := Option.isSome_iff_exists.1 h
    obtain ⟨t', ht'⟩ := Option.isSome_iff_exists.1 h'
    exact eq_of_read? hl hl' ht ht'
  · refine Option.ext fun t => ?_
    rw [findSome?_read?_iff same, DateTime.read?_eq_some_iff]
  · rw [DateTime.read?_eq_some_iff, String.toList_ofList]
    exact ⟨l, hl, read?_write hl h nonneg le⟩

/-- A leap second is read as it was written. A text without a gap and with blanks elsewhere follows
the layout without seconds, so no other one, and is read in the reverse order as well. -/
theorem Layout.unambiguous_and_complete_leap_second :
    let t : DateTime := ⟨2016, 12, 31, 23, 59, 60⟩
    let text : String := " 2024- 2-293:7"
    (∀ l ∈ known, DateTime.read? (String.ofList (l.write t)) =
      some (if Part.second ∈ l then t else { t with second := 0 })) ∧
    short.read? text.toList = some ⟨2024, 2, 29, 3, 7, 0⟩ ∧ full.read? text.toList = none ∧
    known.reverse.findSome? (fun l => l.read? text.toList) = DateTime.read? text := by
  intro t text
  have follows : short.read? text.toList = some ⟨2024, 2, 29, 3, 7, 0⟩ := by decide
  obtain ⟨one, anyOrder, complete⟩ := Layout.unambiguous_and_complete
  refine ⟨complete t (by decide) (by decide) (by decide), follows, ?_,
    anyOrder known.reverse (List.reverse_perm known) text⟩
  refine Option.not_isSome_iff_eq_none.1 fun other => ?_
  have same : full = short :=
    one text.toList full (by decide) short (by decide) other (by rw [follows]; rfl)
  exact absurd same (by decide)

end PlantEconomics
