import PlantEconomics.Csv

/-!
# Records that are written and read

A document can be written with every field in quotes and any of the three line ends behind a
record. Inside quotes the scanner takes commas and line ends for parts of the field, so whatever
bytes the fields hold, the records that it cuts such a document into are those that were written.

  * `Csv.Written`: the documents that write given records;
  * `Csv.Scanner.Reads`: what the scanner is behind some bytes that end no record;
  * `Csv.records_of_written`: the records of a written document.
-/

namespace PlantEconomics

namespace Csv

/-! ## §1. Documents -/

/-- What may stand behind a record. -/
inductive RecordEnd where
  | lineFeed
  | carriageReturn
  | both
deriving Repr, DecidableEq

/-- The bytes of a line end. -/
def RecordEnd.bytes : RecordEnd → List UInt8
  | .lineFeed => [0x0A]
  | .carriageReturn => [0x0D]
  | .both => [0x0D, 0x0A]

/-- Whether a document writes records: their fields are in quotes, and a line end stands behind
each of them but perhaps the last. -/
inductive Written : List (List (List UInt8)) → List UInt8 → Prop where
  | nothing : Written [] []
  | unended (fields : List (List UInt8)) : Written [fields] (quotedRecord fields)
  | ended (fields : List (List UInt8)) (ending : RecordEnd) {rest : List (List (List UInt8))}
      {document : List UInt8} : Written rest document →
      Written (fields :: rest) (quotedRecord fields ++ ending.bytes ++ document)

/-! ## §2. The scanner inside a record -/

namespace Scanner

/-- Whether bytes take a scanner to another one and end no record on the way. -/
def Reads (s : Scanner) (bytes : List UInt8) (s' : Scanner) : Prop :=
  ∀ rest, scan s (bytes ++ rest) = scan s' rest

/-- What a scanner is in the middle of and what it has of the record, wherever it stands. -/
structure Holds (s : Scanner) (mode : Mode) (field : List UInt8) (fields : List (List UInt8)) :
    Prop where
  mode : s.mode = mode
  field : s.field = field
  fields : s.fields = fields

variable {s s' s'' : Scanner} {field : List UInt8} {fields : List (List UInt8)}

theorem Reads.append {first second : List UInt8} (h : s.Reads first s')
    (h' : s'.Reads second s'') : s.Reads (first ++ second) s'' := fun rest => by
  rw [List.append_assoc, h, h']

theorem reads_byte {b : UInt8} (h : s.take b = (s', none)) : s.Reads [b] s' := fun rest => by
  show scan s (b :: rest) = _
  rw [scan, h]

/-- Inside quotes a byte, written once or as a doubled quote, goes into the field. -/
theorem reads_escaped (h : s.Holds .quoted field fields) (b : UInt8) :
    ∃ s', s'.Holds .quoted (b :: field) fields ∧
      s.Reads (if b == quoteByte then [b, b] else [b]) s' := by
  by_cases quote : (b == quoteByte) = true
  · have opened : s.take b = ({ s with here := s.here.after b, mode := .closing }, none) := by
      simp only [take, h.mode, quote, if_true]
    refine ⟨{ s with here := (s.here.after b).after b, mode := .quoted, field := b :: s.field },
      ⟨rfl, congrArg _ h.field, h.fields⟩, ?_⟩
    rw [if_pos quote]
    refine (reads_byte opened).append (reads_byte ?_)
    simp only [take, quote, if_true]
  · refine ⟨{ s with here := s.here.after b, field := b :: s.field },
      ⟨h.mode, congrArg _ h.field, h.fields⟩, ?_⟩
    rw [if_neg quote]
    refine reads_byte ?_
    simp only [take, h.mode, if_neg quote]

theorem reads_body (h : s.Holds .quoted field fields) (body : List UInt8) :
    ∃ s', s'.Holds .quoted (body.reverse ++ field) fields ∧
      s.Reads (body.flatMap fun b => if b == quoteByte then [b, b] else [b]) s' := by
  induction body generalizing s field with
  | nil => exact ⟨s, h, fun _ => rfl⟩
  | cons b body ih =>
    obtain ⟨s₁, h₁, reads₁⟩ := reads_escaped h b
    obtain ⟨s₂, h₂, reads₂⟩ := ih h₁
    rw [List.flatMap_cons, List.reverse_cons, List.append_assoc]
    exact ⟨s₂, h₂, reads₁.append reads₂⟩

/-- Whether a scanner stands where a field begins. -/
structure Begins (s : Scanner) (fields : List (List UInt8)) : Prop where
  mode : s.mode = .between ∨ s.mode = .opening
  field : s.field = []
  fields : s.fields = fields

theorem Holds.begins (h : s.Holds .between [] fields) : s.Begins fields :=
  ⟨.inl h.mode, h.field, h.fields⟩

/-- A quoted field, whatever is in it, is the open field behind its closing quote. -/
theorem reads_quotedField (h : s.Begins fields) (f : List UInt8) :
    ∃ s', s'.Holds .closing f.reverse fields ∧ s.Reads (quotedField f) s' := by
  have opening : s.take quoteByte =
      ({ s with here := s.here.after quoteByte, mode := .quoted }, none) := by
    rcases h.mode with mode | mode <;> simp only [take, mode] <;> rfl
  have inside : Holds { s with here := s.here.after quoteByte, mode := .quoted } .quoted []
      fields := ⟨rfl, h.field, h.fields⟩
  obtain ⟨s', h', body⟩ := reads_body inside f
  have closing : s'.take quoteByte =
      ({ s' with here := s'.here.after quoteByte, mode := .closing }, none) := by
    simp only [take, h'.mode]
    rfl
  rw [List.append_nil] at h'
  exact ⟨{ s' with here := s'.here.after quoteByte, mode := .closing }, ⟨rfl, h'.field, h'.fields⟩,
    ((reads_byte opening).append body).append (reads_byte closing)⟩

/-- Behind a written record the scanner holds its fields. -/
theorem reads_quotedRecord {record : List (List UInt8)} (nonempty : record ≠ [])
    (h : s.Begins fields) :
    ∃ s', s'.mode = .closing ∧ s'.record.fields = fields.reverse ++ record ∧
      s.Reads (quotedRecord record) s' := by
  induction record generalizing s fields with
  | nil => exact absurd rfl nonempty
  | cons f record ih =>
    obtain ⟨s₁, h₁, reads₁⟩ := reads_quotedField h f
    cases record with
    | nil =>
      refine ⟨s₁, h₁.mode, ?_, reads₁⟩
      rw [record, h₁.field, h₁.fields, List.reverse_reverse, List.reverse_cons]
    | cons g record =>
      -- behind the comma the scanner begins the rest of the record with `f` among its closed fields
      have comma : s₁.take commaByte = ({ s₁ with
          here := s₁.here.after commaByte, mode := .opening, field := [],
          fields := s₁.field.reverse :: s₁.fields }, none) := by
        simp only [take, h₁.mode]
        rfl
      have begins : Begins { s₁ with
          here := s₁.here.after commaByte, mode := .opening, field := [],
          fields := s₁.field.reverse :: s₁.fields } (f :: fields) := by
        refine ⟨.inr rfl, rfl, ?_⟩
        rw [h₁.field, h₁.fields, List.reverse_reverse]
      obtain ⟨s₂, mode, held, reads₂⟩ := ih (List.cons_ne_nil g record) begins
      refine ⟨s₂, mode, ?_, reads₁.append ((reads_byte comma).append reads₂)⟩
      rw [held, List.reverse_cons, List.append_assoc, List.singleton_append]

/-- A line end behind a closing quote ends the record. -/
theorem scan_ending (h : s.mode = .closing) (ending : RecordEnd) :
    ∃ s' : Scanner, s'.Holds .between [] [] ∧
      ∀ rest, scan s (ending.bytes ++ rest) = s.record :: scan s' rest := by
  have ends (b : UInt8) (hb : isBreak b = true) (plain : (b == quoteByte || b == commaByte) = false) :
      s.take b = (Scanner.between (s.here.after b), some s.record) := by
    rw [Bool.or_eq_false_iff] at plain
    simp only [take, h, takePlain, plain.1, plain.2, hb, if_true, Bool.false_eq_true, if_false]
  cases ending with
  | lineFeed =>
    refine ⟨Scanner.between (s.here.after 0x0A), ⟨rfl, rfl, rfl⟩, fun rest => ?_⟩
    show scan s (0x0A :: rest) = _
    rw [scan, ends 0x0A rfl rfl]
  | carriageReturn =>
    refine ⟨Scanner.between (s.here.after 0x0D), ⟨rfl, rfl, rfl⟩, fun rest => ?_⟩
    show scan s (0x0D :: rest) = _
    rw [scan, ends 0x0D rfl rfl]
  | both =>
    -- the line feed of the two ends an empty line, which holds no record
    refine ⟨{ between (s.here.after 0x0D) with here := (s.here.after 0x0D).after 0x0A },
      ⟨rfl, rfl, rfl⟩, fun rest => ?_⟩
    show scan s (0x0D :: 0x0A :: rest) = _
    rw [scan, ends 0x0D rfl rfl]
    rfl

end Scanner

/-! ## §3. Whole documents -/

open Scanner

/-- The scanner finds the written records, one after the other. -/
theorem scan_of_written {records : List (List (List UInt8))} {document : List UInt8}
    (h : Written records document) (nonempty : ∀ r ∈ records, r ≠ []) {s : Scanner}
    (start : s.Holds .between [] []) : (scan s document).map (·.fields) = records := by
  induction h generalizing s with
  | nothing =>
    show s.last.map _ = _
    rw [last, start.mode]
    rfl
  | unended fields =>
    obtain ⟨s₁, mode, held, reads⟩ :=
      reads_quotedRecord (nonempty fields List.mem_cons_self) start.begins
    rw [← List.append_nil (quotedRecord fields), reads]
    show s₁.last.map _ = _
    rw [last, mode]
    exact congrArg ([·]) held
  | ended fields ending _ ih =>
    obtain ⟨first, others⟩ := List.forall_mem_cons.1 nonempty
    obtain ⟨s₁, mode, held, reads⟩ := reads_quotedRecord first start.begins
    obtain ⟨s₂, again, ends⟩ := scan_ending mode ending
    rw [List.append_assoc, reads, ends, List.map_cons, held, ih others again]
    rfl

/-- A written document starts with a quote, and so not with a byte order mark. -/
theorem Written.eq_nil_or_cons {records : List (List (List UInt8))} {document : List UInt8}
    (h : Written records document) (nonempty : ∀ r ∈ records, r ≠ []) :
    document = [] ∨ ∃ rest, document = quoteByte :: rest := by
  have quoted (fields : List (List UInt8)) (some_field : fields ≠ []) :
      ∃ rest, quotedRecord fields = quoteByte :: rest := by
    cases fields with
    | nil => exact absurd rfl some_field
    | cons f fields => cases fields <;> exact ⟨_, rfl⟩
  cases h with
  | nothing => exact .inl rfl
  | unended fields => exact .inr (quoted fields (nonempty fields List.mem_cons_self))
  | ended fields ending _ =>
    obtain ⟨rest, eq⟩ := quoted fields (nonempty fields List.mem_cons_self)
    exact .inr ⟨_, by rw [eq]; rfl⟩

/-- **The records of a written document are those that were written**, whatever bytes their fields
hold and whichever line ends stand behind them. -/
theorem records_of_written {written : List (List (List UInt8))} {document : List UInt8}
    (h : Written written document) (nonempty : ∀ r ∈ written, r ≠ []) :
    (records document).map (·.fields) = written := by
  have unmarked : records document = scan (Scanner.between Place.start) document := by
    rcases h.eq_nil_or_cons nonempty with rfl | ⟨rest, rfl⟩ <;> rfl
  rw [unmarked]
  exact scan_of_written h nonempty ⟨rfl, rfl, rfl⟩

end Csv

end PlantEconomics
