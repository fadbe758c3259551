import PlantEconomics.Fault

/-!
# Closed vocabularies

An option of a costing or of a setting is one of a few words. A vocabulary lists the meanings and
gives each its word; reading a word finds the meaning that has it.
-/

namespace PlantEconomics

/-- Meanings with one word each. -/
class Vocabulary (τ : Type) where
  /-- All meanings. -/
  all : List τ
  /-- The word of a meaning. -/
  word : τ → String

namespace Vocabulary

variable {τ : Type} [Vocabulary τ]

/-- The meaning of a word. -/
def read? (text : String) : Option τ := (all : List τ).find? fun t => word t == text

/-- The meaning of a word given for a parameter. -/
def parse {α : Type} (parameter text : String) : Except (Fault α) τ :=
  match read? text with
  | some t => .ok t
  | none => .error (.unknownOption parameter text)

theorem word_of_read? {text : String} {t : τ} (h : read? text = some t) : word t = text := by
  simpa using List.find?_some h

end Vocabulary

end PlantEconomics
