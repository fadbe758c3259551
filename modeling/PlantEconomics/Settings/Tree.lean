/-!
# Trees of settings

Settings come as a tree: tables of named entries, lists, and single values. Later sources are laid
over earlier ones, table by table and entry by entry; anything else that a later source gives takes
the place of what was there.

A tree is read by the name of an entry (`Setting.get?`), changed at a name (`Setting.put`), built up
from a path of names (`Setting.under`), and laid over another one (`Setting.overlay`).
-/

namespace PlantEconomics

/-- A value or a tree of values. Whole numbers and other numbers are told apart. -/
inductive Setting where
  | null
  | flag (b : Bool)
  | whole (n : Int)
  | number (x : Float)
  | text (s : String)
  /-- A character by itself, which is told apart from a text of one character. -/
  | letter (c : Char)
  | list (xs : List Setting)
  | table (entries : List (String × Setting))
deriving Repr

namespace Setting

/-- Whether a character may stand in a name that is not quoted. -/
def isNameChar (c : Char) : Bool := c.isAlphanum || c == '_' || c == '-'

/-- The entries of a table; other values have none. -/
def entries : Setting → List (String × Setting)
  | table es => es
  | _ => []

/-- The entry of a name; of several the last. -/
def get? (s : Setting) (key : String) : Option Setting :=
  (s.entries.reverse.find? fun e => e.1 == key).map (·.2)

/-- Entries with the value of a name replaced, or added at the end. -/
def put (key : String) (v : Setting) : List (String × Setting) → List (String × Setting)
  | [] => [(key, v)]
  | (k, w) :: rest => if k == key then (k, v) :: rest else (k, w) :: put key v rest

mutual

/-- A tree with another one laid over it. -/
def overlay (base : Setting) : Setting → Setting
  | table es => table (overlayEntries base.entries es)
  | v => v

/-- Entries with others laid over them. -/
def overlayEntries (base : List (String × Setting)) :
    List (String × Setting) → List (String × Setting)
  | [] => base
  | (k, v) :: rest =>
    let old := (get? (table base) k).getD (table [])
    overlayEntries (put k (overlay old v) base) rest

end

/-- A value under a path of names. -/
def under (v : Setting) : List String → Setting
  | [] => v
  | k :: ks => table [(k, under v ks)]

mutual

/-- A tree with every text replaced by what `f` makes of it. -/
def mapTexts (f : String → Setting) : Setting → Setting
  | text s => f s
  | list xs => list (mapTextsAll f xs)
  | table es => table (mapTextsEntries f es)
  | v => v

/-- Trees with every text replaced. -/
def mapTextsAll (f : String → Setting) : List Setting → List Setting
  | [] => []
  | x :: rest => mapTexts f x :: mapTextsAll f rest

/-- Entries with every text in their values replaced. -/
def mapTextsEntries (f : String → Setting) : List (String × Setting) → List (String × Setting)
  | [] => []
  | (k, x) :: rest => (k, mapTexts f x) :: mapTextsEntries f rest

end

end Setting

end PlantEconomics
