import PlantEconomics.Program.Ledger
import PlantEconomics.Proofs.Program.History

/-!
# Histories of ledgers

Edits change a ledger in place, so a refused edit could leave half of its changes behind, and the
five parts of a ledger could come apart. Neither happens: every edit looks at what is there before it
changes anything, and a new variable goes into all parts that know of variables at once. What an edit
leaves is said by `Ledger.edited`, both where it succeeds and where it is refused, and a whole history
follows edit by edit.

The store is to hand out a different handle each time. Then handles lead to the variables for which
they were handed out, whatever else they are.

  * `Edit.yields_steps`, `Edit.fails_steps`: one edit, carried out and refused;
  * `Ledger.program_after`: the program of a ledger is that of its history;
  * `Ledger.tied_after`: handles, places and variables go together;
  * `Ledger.write_once` puts it together.
-/

namespace PlantEconomics

variable {α : Type} {handle : Nat → Var}

/-! ## §1. Steps on the program of a ledger -/

namespace Ledger

theorem yields_onProgram_iff {β : Type} {steps : Program.InPlace α β} {l l' : Ledger α} {b : β} :
    Yields (onProgram steps) l b l' ↔
      ∃ p, Yields steps l.program b p ∧ { l with program := p } = l' := by
  show (((steps.run.run l.program).run.1, { l with program := (steps.run.run l.program).run.2 }) :
    Except (Fault α) β × Ledger α) = (.ok b, l') ↔ ∃ p, (steps.run.run l.program).run = (.ok b, p) ∧ _
  rcases (steps.run.run l.program).run with ⟨_ | _, p⟩ <;> simp [and_assoc]

theorem fails_onProgram_iff {β : Type} {steps : Program.InPlace α β} {l l' : Ledger α}
    {fault : Fault α} :
    Fails (onProgram steps) l fault l' ↔
      ∃ p, Fails steps l.program fault p ∧ { l with program := p } = l' := by
  show (((steps.run.run l.program).run.1, { l with program := (steps.run.run l.program).run.2 }) :
    Except (Fault α) β × Ledger α) = (.error fault, l') ↔
      ∃ p, (steps.run.run l.program).run = (.error fault, p) ∧ _
  rcases (steps.run.run l.program).run with ⟨_ | _, p⟩ <;> simp [and_assoc]

/-- A variable goes into all parts at once, under the next handle. -/
theorem yields_create_iff {spec : VariableSpec α} {l l' : Ledger α} {v : Var} :
    Yields (create handle spec) l v l' ↔ handle l.given = v ∧
      { given := l.given + 1
        handles := l.handles.push (handle l.given)
        positions := l.positions.insert (handle l.given) l.program.size
        program := l.program.addVariable spec } = l' := by
  unfold create
  simp only [yields_bind_iff, yields_get_iff, yields_modify_iff, yields_pure_iff]
  constructor
  · rintro ⟨_, _, ⟨rfl, rfl⟩, _, _, rfl, _, _, rfl, _, _, rfl, rfl, rfl⟩
    exact ⟨rfl, rfl⟩
  · rintro ⟨rfl, rfl⟩
    exact ⟨l, l, ⟨rfl, rfl⟩, ⟨⟩, _, rfl, ⟨⟩, _, rfl, ⟨⟩, _, rfl, rfl, rfl⟩

/-! ## §2. One edit -/

/-- The ledger with what an edit adds. A new variable goes under the next handle. -/
def edited (handle : Nat → Var) (l : Ledger α) (e : Edit α) : Ledger α :=
  match e.spec? with
  | none => { l with program := l.program.edited e }
  | some _ =>
    { given := l.given + 1
      handles := l.handles.push (handle l.given)
      positions := l.positions.insert (handle l.given) l.program.size
      program := l.program.edited e }

@[simp] theorem program_edited (l : Ledger α) (e : Edit α) :
    (l.edited handle e).program = l.program.edited e := by
  cases e <;> rfl

theorem edited_of_none {l : Ledger α} {e : Edit α} (none : e.spec? = none) :
    l.edited handle e = { l with program := l.program.edited e } := by
  unfold edited
  rw [none]

theorem edited_of_some {l : Ledger α} {e : Edit α} {spec : VariableSpec α}
    (asked : e.spec? = some spec) :
    l.edited handle e =
      { given := l.given + 1
        handles := l.handles.push (handle l.given)
        positions := l.positions.insert (handle l.given) l.program.size
        program := l.program.edited e } := by
  unfold edited
  rw [asked]

end Ledger

namespace Edit

/-- What an edit answers when it is carried out. -/
def answer (handle : Nat → Var) (l : Ledger α) : Edit α → Answer
  | .create _ => .handle (handle l.given)
  | .family _ members => .members members.length
  | .constraint _ _ | .expression _ _ | .objective _ => .done

/-- **An edit that clashes fails and changes nothing.** Its fault is one of configuration. -/
theorem fails_steps {l : Ledger α} {e : Edit α} (clash : e.Clashes l.program) :
    ∃ cause, Fails (e.steps handle) l (.configuration cause) l := by
  -- the steps on the program fail at their check, and what follows them is not run
  have refused {β : Type} {steps : Program.InPlace α β} {next : β → Ledger.InPlace α Answer}
      {fault : Fault α} (h : Fails steps l.program fault l.program) :
      Fails (Ledger.onProgram steps >>= next) l fault l :=
    fails_bind_iff.2 (.inl (Ledger.fails_onProgram_iff.2 ⟨_, h, rfl⟩))
  have family {name : String} {members : List (Index × Relation α)}
      (taken : name ∈ l.program.families) : Fails (Program.addFamilyInPlace name members) l.program
        (.configuration (.familyDefined name)) l.program := by
    refine Program.fails_addFamilyInPlace_iff.2 ⟨?_, rfl⟩
    simp [Program.ensureNew, Program.hasFamily, taken]
  cases e with
  | create spec => exact clash.elim
  | family name members => exact ⟨_, refused (family clash)⟩
  | constraint name r => exact ⟨_, refused (fails_bind_iff.2 (.inl (family clash)))⟩
  | expression name x =>
    cases known : l.program.expression? name with
    | none => exact absurd clash (Program.expression?_eq_none_iff.1 known)
    | some y =>
      refine ⟨.expressionDefined name, refused (Program.fails_checked_iff.2 ⟨?_, rfl⟩)⟩
      simp only [Program.ensureNewExpression, known]
  | objective o =>
    obtain ⟨first, known⟩ := Option.ne_none_iff_exists'.1 clash
    refine ⟨.objectiveDefined first.name, refused (Program.fails_checked_iff.2 ⟨?_, rfl⟩)⟩
    simp only [Program.ensureNoObjective, known]

/-- **An edit that does not clash is carried out**, and adds what it has to add. -/
theorem yields_steps {l : Ledger α} {e : Edit α} (new : ¬e.Clashes l.program) :
    Yields (e.steps handle) l (e.answer handle l) (l.edited handle e) := by
  have carried {β : Type} {steps : Program.InPlace α β} {next : β → Answer} {p : Program α} (b : β)
      (h : Yields steps l.program b p) :
      Yields (Ledger.onProgram steps >>= fun b => pure (next b)) l (next b)
        { l with program := p } :=
    yields_bind_iff.2 ⟨b, _, Ledger.yields_onProgram_iff.2 ⟨p, h, rfl⟩, yields_pure_iff.2 ⟨rfl, rfl⟩⟩
  cases e with
  | create spec =>
    refine yields_bind_iff.2 ⟨_, _, Ledger.yields_create_iff.2 ⟨rfl, rfl⟩, ?_⟩
    rw [← Program.edited_create]
    exact yields_pure_iff.2 ⟨rfl, rfl⟩
  | family name members =>
    show Yields _ l _ { l with program := l.program.edited _ }
    rw [Program.edited_family new]
    exact carried _ (Program.yields_addFamilyInPlace_iff.2 ⟨new, rfl, rfl⟩)
  | constraint name r =>
    show Yields _ l _ { l with program := l.program.edited _ }
    rw [Program.edited_constraint new]
    exact carried () (Program.yields_addConstraintInPlace_iff.2 ⟨new, rfl⟩)
  | expression name x =>
    show Yields _ l _ { l with program := l.program.edited _ }
    rw [Program.edited_expression new]
    exact carried ()
      (Program.yields_addExpressionInPlace_iff.2 ⟨Program.expression?_eq_none_iff.2 new, rfl⟩)
  | objective o =>
    have free : l.program.objective = none := not_not.1 new
    show Yields _ l _ { l with program := l.program.edited _ }
    rw [Program.edited_objective free]
    exact carried () (Program.yields_setObjectiveInPlace_iff.2 ⟨free, rfl⟩)

/-- The variable that an edit has created, by what was answered: its handle, and what is to be known
of it. -/
def created : Edit α → Except (Fault α) Edit.Answer → List (Var × VariableSpec α)
  | .create spec, .ok (.handle v) => [(v, spec)]
  | _, _ => []

end Edit

/-! ## §3. Histories -/

namespace Ledger

theorem attempt_of_clashes {l : Ledger α} {e : Edit α} (clash : e.Clashes l.program) :
    ∃ cause, l.attempt handle e = (.error (.configuration cause), l) :=
  Edit.fails_steps clash

theorem attempt_of_not_clashes {l : Ledger α} {e : Edit α} (new : ¬e.Clashes l.program) :
    l.attempt handle e = (.ok (e.answer handle l), l.edited handle e) :=
  Edit.yields_steps new

/-- With a clash there is nothing to add. -/
theorem edited_of_clashes {l : Ledger α} {e : Edit α} (clash : e.Clashes l.program) :
    l.edited handle e = l := by
  have same := Program.edited_of_clashes clash
  cases e with
  | create spec => exact clash.elim
  | family name members | constraint name r | expression name x | objective o =>
    show { l with program := l.program.edited _ } = l
    rw [same]

/-- Refused or not, an edit leaves what it has to add. -/
theorem snd_attempt (l : Ledger α) (e : Edit α) : (l.attempt handle e).2 = l.edited handle e := by
  by_cases clash : e.Clashes l.program
  · obtain ⟨cause, refused⟩ :
        ∃ cause, l.attempt handle e = (.error (.configuration cause), l) :=
      attempt_of_clashes clash
    rw [refused, edited_of_clashes clash]
  · rw [attempt_of_not_clashes clash]

theorem after_concat (history : List (Edit α)) (e : Edit α) :
    after handle (history ++ [e]) = (after handle history).edited handle e := by
  rw [← snd_attempt]
  simp [after]

/-- The program of a ledger is that of its history. -/
theorem program_after (history : List (Edit α)) :
    (after handle history).program = Program.after history := by
  induction history using List.reverseRecOn with
  | nil => rfl
  | append_singleton history e ih =>
    rw [after_concat, program_edited, ih, Program.after_concat]

/-! ## §4. Handles -/

/-- Whether the parts of a ledger that know of variables go together: the handles are the first ones
of the store, and each leads to the place of its variable. -/
structure Tied (handle : Nat → Var) (l : Ledger α) : Prop where
  given : l.given = l.program.size
  handles : l.handles.toList = (List.range l.program.size).map handle
  positions : ∀ v i, l.positions[v]? = some i ↔ i < l.program.size ∧ handle i = v

theorem tied_empty : (empty : Ledger α).Tied handle where
  given := rfl
  handles := rfl
  positions v i := by
    simp [empty, Program.empty, Program.size]

/-- An edit keeps them together, if the store has a different handle each time. -/
theorem Tied.edited (distinct : Function.Injective handle) {l : Ledger α} (tied : l.Tied handle)
    (e : Edit α) : (l.edited handle e).Tied handle := by
  cases asked : e.spec? with
  | none =>
    have size : (l.program.edited e).size = l.program.size := by simp [asked]
    rw [edited_of_none asked]
    constructor
    · exact tied.given.trans size.symm
    · rw [size]
      exact tied.handles
    · rw [size]
      exact tied.positions
  | some spec =>
    have size : (l.program.edited e).size = l.program.size + 1 := by simp [asked]
    rw [edited_of_some asked]
    constructor
    · rw [size, tied.given]
    · rw [size, Array.toList_push, tied.handles, tied.given, List.range_succ, List.map_append]
      rfl
    · intro v i
      rw [size, Std.HashMap.getElem?_insert, tied.given]
      by_cases newest : handle l.program.size = v
      · -- the newest handle leads to the newest place, and no other place has it
        rw [if_pos (beq_iff_eq.2 newest), Option.some_inj]
        constructor
        · rintro rfl
          exact ⟨Nat.lt_succ_self _, newest⟩
        · rintro ⟨-, own⟩
          exact distinct (newest.trans own.symm)
      · rw [if_neg (mt beq_iff_eq.1 newest), tied.positions]
        constructor
        · rintro ⟨inside, own⟩
          exact ⟨Nat.lt_succ_of_lt inside, own⟩
        · rintro ⟨inside, own⟩
          refine ⟨Nat.lt_of_le_of_ne (Nat.lt_succ_iff.1 inside) ?_, own⟩
          rintro rfl
          exact newest own

/-- So they are together after every history. -/
theorem tied_after (distinct : Function.Injective handle) (history : List (Edit α)) :
    (after handle history).Tied handle := by
  induction history using List.reverseRecOn with
  | nil => exact tied_empty
  | append_singleton history e ih =>
    rw [after_concat]
    exact ih.edited distinct e

section Entries

variable {l : Ledger α} (tied : l.Tied handle)

include tied

theorem Tied.map_fst_entries : l.entries.map (·.1) = (List.range l.program.size).map handle := by
  have even : l.handles.toList.length ≤ l.program.specs.toList.length := by
    rw [tied.handles, List.length_map, List.length_range]
    exact Nat.le_refl _
  rw [entries, List.map_fst_zip even, tied.handles]

/-- No two variables have the same handle. -/
theorem Tied.nodup_entries (distinct : Function.Injective handle) :
    (l.entries.map (·.1)).Nodup := by
  rw [tied.map_fst_entries]
  exact List.nodup_range.map distinct

/-- A handle leads to its own variable, and only handles do. -/
theorem Tied.mem_entries_iff {v : Var} {spec : VariableSpec α} :
    (v, spec) ∈ l.entries ↔ l.spec? v = some spec := by
  have listed : (v, spec) ∈ l.entries ↔
      ∃ i, i < l.program.size ∧ handle i = v ∧ l.program.spec? i = some spec := by
    unfold entries
    rw [tied.handles, List.mem_iff_getElem?]
    refine exists_congr fun i => ?_
    rw [List.getElem?_zip_eq_some, List.getElem?_map, Option.map_eq_some_iff]
    constructor
    · rintro ⟨⟨j, place, own⟩, known⟩
      obtain ⟨inside, rfl⟩ := List.getElem?_eq_some_iff.1 place
      exact ⟨by simpa using inside, by simpa using own, by simpa [Program.spec?] using known⟩
    · rintro ⟨inside, own, known⟩
      exact ⟨⟨i, List.getElem?_range inside, own⟩, by simpa [Program.spec?] using known⟩
  rw [listed]
  unfold spec?
  rw [Option.bind_eq_some_iff]
  simp only [tied.positions, and_assoc]

/-- A new variable comes behind the others. -/
theorem Tied.entries_edited (e : Edit α) :
    (l.edited handle e).entries =
      l.entries ++ e.spec?.toList.map fun spec => (handle l.given, spec) := by
  have even : l.handles.toList.length = l.program.specs.toList.length := by
    rw [tied.handles, List.length_map, List.length_range]
    rfl
  cases asked : e.spec? with
  | none =>
    rw [edited_of_none asked]
    simp [entries, asked]
  | some spec =>
    rw [edited_of_some asked]
    simp only [entries, Program.specs_edited, asked, Array.toList_push, Array.toList_append]
    exact List.zip_append even

end Entries

/-- The variables that a history creates, one edit after the other: each with the handle that was
answered. -/
def created (handle : Nat → Var) (l : Ledger α) : List (Edit α) → List (Var × VariableSpec α)
  | [] => []
  | e :: later =>
    e.created (l.attempt handle e).1 ++ created handle (l.attempt handle e).2 later

theorem created_attempt (l : Ledger α) (e : Edit α) :
    e.created (l.attempt handle e).1 =
      e.spec?.toList.map fun spec => (handle l.given, spec) := by
  cases e with
  | create spec =>
    have carried : l.attempt handle (.create spec) =
        (.ok (.handle (handle l.given)), l.edited handle (.create spec)) :=
      attempt_of_not_clashes not_false
    rw [carried]
    rfl
  | family name members | constraint name r | expression name x | objective o => rfl

/-- The variables of a ledger are those that were created, in their order. -/
theorem entries_foldl (distinct : Function.Injective handle) {l : Ledger α} (tied : l.Tied handle)
    (later : List (Edit α)) :
    (later.foldl (fun l e => (l.attempt handle e).2) l).entries =
      l.entries ++ l.created handle later := by
  induction later generalizing l with
  | nil => simp [created]
  | cons e later ih =>
    have next := tied.edited distinct e
    rw [List.foldl_cons, snd_attempt, ih next, tied.entries_edited, List.append_assoc, created,
      created_attempt, snd_attempt]

/-! ## §5. What is there stays -/

/-- Everything in a ledger is in another one too, at its place and unchanged. -/
structure Keeps (l l' : Ledger α) : Prop where
  entries : l.entries <+: l'.entries
  known : ∀ v spec, l.spec? v = some spec → l'.spec? v = some spec
  program : l.program.Keeps l'.program

theorem keeps_after (distinct : Function.Injective handle) (history later : List (Edit α)) :
    (after handle history).Keeps (after handle (history ++ later)) := by
  have continued : after handle (history ++ later) =
      later.foldl (fun l e => (l.attempt handle e).2) (after handle history) := List.foldl_append
  have entries : (after handle history).entries <+: (after handle (history ++ later)).entries := by
    rw [continued, entries_foldl distinct (tied_after distinct history)]
    exact List.prefix_append ..
  refine ⟨entries, fun v spec known => ?_, ?_⟩
  · rw [← (tied_after distinct _).mem_entries_iff] at known ⊢
    exact entries.subset known
  · rw [program_after, program_after]
    unfold Program.after
    rw [List.foldl_append]
    exact Program.keeps_foldl later _

/-! ## §6. What a history leaves -/

/-- A ledger holds what its history says, and nothing else. -/
structure Records (handle : Nat → Var) (l : Ledger α) (history : List (Edit α)) : Prop where
  entries : l.entries = empty.created handle history
  distinct : (l.entries.map (·.1)).Nodup
  known : ∀ v spec, l.spec? v = some spec ↔ (v, spec) ∈ empty.created handle history
  registered : ∀ c ∈ l.program.constraints, c.family ∈ l.program.families
  families : ∀ name, name ∈ l.program.families ↔
    name ∈ (history.filterMap Edit.family?).map (·.1)
  members : ∀ name, l.program.familyMembers name =
    (((history.filterMap Edit.family?).lookup name).getD []).map fun m => ⟨name, m.1, m.2⟩
  together : ∀ name, l.program.familyMembers name <:+: l.program.constraints
  expressions : ∀ name,
    l.program.expression? name = (history.filterMap Edit.expression?).lookup name
  objective : l.program.objective = (history.filterMap Edit.objective?).head?

theorem records_after (distinct : Function.Injective handle) (history : List (Edit α)) :
    (after handle history).Records handle history := by
  have tied := tied_after distinct history
  have entries : (after handle history).entries = empty.created handle history :=
    entries_foldl distinct tied_empty history
  have program : (after handle history).program = Program.after history := program_after history
  exact {
    entries
    distinct := tied.nodup_entries distinct
    known := fun v spec => by rw [← entries, tied.mem_entries_iff]
    registered := program ▸ fun c hc => Program.family_mem_families_after hc
    families := program ▸ fun name => Program.mem_families_after
    members := program ▸ Program.familyMembers_after history
    together := program ▸ Program.familyMembers_infix_after history
    expressions := program ▸ Program.expression?_after history
    objective := program ▸ Program.objective_after history }

/-- **Write once.** Whatever is tried on a ledger, in any order, if the store has a different handle
each time: the ledger holds the variables created, each under the handle that was answered, the
first family, expression and objective of each name, and every family in one piece. An edit under a
used name fails, by a fault of configuration, and leaves the whole ledger as it was; any other edit
is carried out; and whatever comes later, all that is there stays as it is. -/
theorem write_once (distinct : Function.Injective handle) (history : List (Edit α)) :
    let l := after handle history
    l.Records handle history ∧
      (∀ e : Edit α, e.Repeats history →
        ∃ cause, l.attempt handle e = (.error (.configuration cause), l)) ∧
      (∀ e : Edit α, ¬e.Repeats history →
        l.attempt handle e = (.ok (e.answer handle l), after handle (history ++ [e]))) ∧
      ∀ later, l.Keeps (after handle (history ++ later)) := by
  intro l
  have clashes_iff {e : Edit α} : e.Clashes l.program ↔ e.Repeats history := by
    rw [program_after, Program.clashes_after_iff]
  refine ⟨records_after distinct history, ?_, ?_, keeps_after distinct history⟩
  · intro e repeats
    exact attempt_of_clashes (clashes_iff.2 repeats)
  · intro e new
    rw [after_concat]
    exact attempt_of_not_clashes (mt clashes_iff.1 new)

/-- A family without members is a family: its name cannot be used for a constraint later on. An
expression and the objective come once too; under another name they would still be accepted. A new
variable is found under its handle. -/
theorem write_once_empty_family :
    let handle : Nat → Var := id
    let power : VariableSpec Nat := ⟨"power", .reals, none, none⟩
    let history : List (Edit Nat) :=
      [.create power, .family "idle" [], .expression "cost" (.const 0),
        .objective ⟨"cost", .const 0, .minimize⟩]
    let repeated : List (Edit Nat) :=
      [.constraint "idle" ⟨.const 1, .le⟩, .expression "cost" (.const 1),
        .objective ⟨"profit", .const 0, .maximize⟩]
    let new : Edit Nat := .create ⟨"heat", .binary, none, none⟩
    let l := after handle history
    Function.Injective handle ∧ l.spec? 0 = some power ∧
      (∀ e ∈ repeated, ∃ cause, l.attempt handle e = (.error (.configuration cause), l)) ∧
      l.attempt handle new = (.ok (.handle 1), after handle (history ++ [new])) ∧
      (after handle (history ++ [new])).spec? 0 = some power := by
  intro handle power history repeated new l
  have distinct : Function.Injective handle := Function.injective_id
  obtain ⟨records, refused, carried, keeps⟩ := write_once distinct history
  have known : l.spec? 0 = some power := (records.known 0 power).2 (by decide)
  refine ⟨distinct, known, fun e he => refused e ?_, ?_, (keeps [new]).known 0 power known⟩
  · simp only [repeated, List.mem_cons, List.not_mem_nil, or_false] at he
    rcases he with rfl | rfl | rfl <;>
      simp [history, Edit.Repeats, Edit.family?, Edit.expression?, Edit.objective?]
  · exact carried new (by simp [new, Edit.Repeats])

end Ledger

end PlantEconomics
