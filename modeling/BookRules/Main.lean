import BookRules.Command.Execution

/-!
# The program

Reads the arguments and the files they name, runs the command and writes what it
gives.  Pages are not fetched over a network: the variable `BOOKRULES_PAGES` of
the environment names a file with a JSON object from addresses to pages.
-/

namespace BookRules

/-- The text of a file, if it can be read. -/
def readFile? (name : String) : IO (Option String) := do
  try return some (← IO.FS.readFile name)
  catch _ => return none

def pagesOf (text : String) : Bindings :=
  match Json.parse? text.toList with
  | some (.object members) => Bindings.ofPairs (members.filterMap fun
    | (url, .string body) => some (url, body)
    | _ => none)
  | _ => []

def keptPages : IO Bindings := do
  match ← IO.getEnv "BOOKRULES_PAGES" with
  | none => return []
  | some name => return pagesOf ((← readFile? name).getD "")

/-- What a command can read. -/
def surroundings (command : Command) : IO Command.Surroundings := do
  let files ← command.files.mapM fun name => return (name, ← readFile? name)
  let input ← match command with
    | .eval _ none _ _ => (← IO.getStdin).readToEnd
    | _ => pure ""
  return { file? := fun name => (files.find? fun p => p.1 == name).bind (·.2), input }

end BookRules

def main (arguments : List String) : IO UInt32 := do
  match BookRules.Command.ofArguments arguments with
  | .error usage =>
    if usage.isAnswer then
      IO.println usage.message
      return 0
    else
      IO.eprintln usage.message
      return 2
  | .ok command =>
    let env ← BookRules.surroundings command
    let transport := BookRules.Transport.ofPages (← BookRules.keptPages)
    match ((BookRules.Command.run env transport command).run.run []).1 with
    | .ok text =>
      IO.print text
      return 0
    | .error fault =>
      IO.eprintln ("Error: " ++ fault.message)
      return 1
