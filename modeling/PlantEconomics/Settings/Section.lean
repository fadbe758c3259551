import PlantEconomics.Powers
import PlantEconomics.Decimal.Binary64
import PlantEconomics.Settings.Tree
import PlantEconomics.Vocabulary

/-!
# Reading settings

A section gives its settings by name or, as a list, by position. Types are strict: text is no
number, a number with a point is no whole number; a whole number is accepted where any number is.
Settings that are not known are passed over.

Three ways to ask for a setting differ in what it means that the setting is missing:

  * `required`: it has to be there;
  * `orElse`: a standard value takes its place;
  * `optional`: a named section may leave it out, a list may not.
-/

namespace PlantEconomics

/-! ## §1. Single values -/

/-- Why settings cannot be used. -/
inductive SettingFault where
  /-- The settings file is not written as one. -/
  | unreadable
  | missing (name : String)
  /-- A value is not of the kind that is expected. -/
  | unexpected (wanted : String)
deriving Repr, DecidableEq

/-- The wording of a fault. -/
def SettingFault.message : SettingFault → String
  | .unreadable => "the settings file cannot be read"
  | .missing name => s!"missing setting '{name}'"
  | .unexpected wanted => s!"expected {wanted}"

namespace Setting

/-- A result of reading settings. -/
abbrev Read (β : Type) : Type := Except SettingFault β

/-- A yes or no. -/
def asFlag : Setting → Read Bool
  | flag b => .ok b
  | _ => .error (.unexpected "a flag")

/-- Text. A letter counts as text. -/
def asText : Setting → Read String
  | text s => .ok s
  | letter c => .ok (String.singleton c)
  | _ => .error (.unexpected "text")

/-- A whole number from zero up to but not including a limit. -/
def asNatBelow (limit : Nat) : Setting → Read Nat
  | whole n =>
    if 0 ≤ n ∧ n < limit then .ok n.toNat else .error (.unexpected "a whole number in range")
  | _ => .error (.unexpected "a whole number")

/-- A whole number of 64 bits. -/
def asNat : Setting → Read Nat := asNatBelow (twoTo 64)

/-- A number. -/
def asNumber : Setting → Read Float
  | whole n => .ok (Binary64.ofDecimal (n < 0) n.natAbs 0)
  | number x => .ok x
  | _ => .error (.unexpected "a number")

/-- Texts without letters. -/
def asTexts : Setting → Read (List String)
  | list xs => xs.mapM fun
    | text s => .ok s
    | _ => .error (.unexpected "text")
  | _ => .error (.unexpected "a list of texts")

/-- The entry of a table whose name comes first in the order of texts. -/
def earliest? : List (String × Setting) → Option (String × Setting)
  | [] => none
  | e :: rest =>
    match earliest? rest with
    | none => some e
    | some f => if f.1 < e.1 then some f else some e

/-- A word of a vocabulary: the word itself, or a table whose first entry has it for a name and
holds nothing. -/
def asWord {τ : Type} [Vocabulary τ] (s : Setting) : Read τ :=
  let word? := match s with
    | text w => some w
    | table es => (earliest? es).bind fun
      | (w, null) => some w
      | _ => none
    | _ => none
  match word?.bind Vocabulary.read? with
  | some t => .ok t
  | none => .error (.unexpected "one of the known words")

/-- A value that may be null. -/
def orNull {β : Type} (read : Setting → Read β) : Setting → Read (Option β)
  | null => .ok none
  | s => some <$> read s

/-! ## §2. Sections -/

/-- The settings of a section by name or by position. -/
inductive Section where
  | named (table : Setting)
  | listed (values : List Setting)

/-- A table or a list as a section. -/
def asSection : Setting → Read Section
  | table es => .ok (.named (.table es))
  | list xs => .ok (.listed xs)
  | _ => .error (.unexpected "a section")

namespace Section

variable {β : Type}

/-- The setting of a name, or in a position. -/
def find? (s : Section) (name : String) (position : Nat) : Option Setting :=
  match s with
  | named t => t.get? name
  | listed xs => xs[position]?

/-- A setting that has to be there. -/
def required (s : Section) (name : String) (position : Nat) (read : Setting → Read β) :
    Read β :=
  match s.find? name position with
  | some v => read v
  | none => .error (.missing name)

/-- A setting with a standard value. -/
def orElse (s : Section) (name : String) (position : Nat) (standard : β)
    (read : Setting → Read β) : Read β :=
  match s.find? name position with
  | some v => read v
  | none => .ok standard

/-- A setting that may be null, and that a named section may leave out. -/
def optional (s : Section) (name : String) (position : Nat) (read : Setting → Read β) :
    Read (Option β) :=
  match s with
  | named _ => s.orElse name position none (orNull read)
  | listed _ => s.required name position (orNull read)

end Section

end Setting

end PlantEconomics
