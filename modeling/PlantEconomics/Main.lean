import PlantEconomics.Study.Run

/-!
# The command line

The program takes no arguments. It looks for `config/default.toml` in the current directory and
then in the directories above it, lays the environment over the settings, reads the price table
and prints the summary of the study. A failure is reported on the standard error, and the exit code
is then one.

Only reading and printing happen here; what a study is and what it answers is decided by
`StudyConfig.ofSources` and `StudyConfig.run`.
-/

namespace PlantEconomics

namespace CommandLine

/-- Where the settings are looked for, from a directory at some depth upwards. -/
def settingsPaths : Nat → List String
  | 0 => [settingsPath]
  | depth + 1 => settingsPath :: (settingsPaths depth).map ("../" ++ ·)

/-- The bytes of the first file that can be read. -/
def firstReadable? : List String → IO (Option (List UInt8))
  | [] => return none
  | path :: rest => do
    try return some (← IO.FS.readBinFile path).toList
    catch _ => firstReadable? rest

/-- The texts between the null bytes of a list. -/
def betweenNulls (bytes : List UInt8) : List String :=
  (bytes.splitOn 0).filterMap fun part => (Utf8.decode part).toOption

/-- The name and the text of a variable, which stand on both sides of the first equals sign. -/
def variableOf (entry : String) : String × String :=
  let cs := entry.toList
  (String.ofList (cs.takeWhile (· != '=')), String.ofList ((cs.dropWhile (· != '=')).drop 1))

/-- The variables of the environment. -/
def environment : IO (List (String × String)) := do
  try
    let bytes ← IO.FS.readBinFile "/proc/self/environ"
    return (betweenNulls bytes.toList).map variableOf
  catch _ => return []

/-- The number of a system error, which some calls give with its sign changed. -/
def codeOf (code : UInt32) : UInt32 := if code < 0x80000000 then code else 0 - code

/-- A reason in the words and by the number of the system. -/
def otherReason (code : UInt32) (words : String) : Csv.FileFault :=
  if codeOf code == 36 then .nameTooLong
  else .other s!"{words.capitalize} (os error {codeOf code})"

/-- Why a file cannot be read. A directory can be opened, and only its content cannot be read. -/
def faultOf : IO.Error → Fault Float
  | .noFileOrDirectory .. => .file .notFound
  | .inappropriateType none _ _ => .csv (.unreadable .isDirectory)
  | .inappropriateType .. => .file .notDirectory
  | .invalidArgument _ code words => .file (otherReason code words)
  | .permissionDenied _ code words => .file (otherReason code words)
  | e => .file (.other (toString e))

/-- What a path holds. -/
def contentOf (path : String) : IO (Except (Fault Float) (List UInt8)) := do
  if path.toList.contains '\x00' then return .error (.file .nullInName)
  try return .ok (← IO.FS.readBinFile path).toList
  catch e => return .error (faultOf e)

/-- Run the study of the current directory. -/
def run : IO (Except StudyFailure (Option StudySummary)) := do
  let depth := (← IO.currentDir).components.length
  let document ← firstReadable? (settingsPaths depth)
  let named ← environment
  match StudyConfig.ofSources document named with
  | .error failure => return .error failure
  | .ok config =>
    let content ← contentOf config.source.path
    return config.run fun _ => content

end CommandLine

end PlantEconomics

/-- Print the summary of the study of the current directory, or report why there is none. -/
def main : IO UInt32 := do
  match ← PlantEconomics.CommandLine.run with
  | .ok none => return 0
  | .ok (some summary) =>
    IO.println summary.text
    return 0
  | .error failure =>
    IO.eprintln ("Error: " ++ failure.report)
    return 1
