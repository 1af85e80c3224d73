import BookRules.Command.Arguments

/-!
# Commands

The program searches sources, shows a book, lists its chapters, prints a chapter,
and evaluates a rule against a document.
-/

namespace BookRules

inductive Command
  | search (sources keyword : String) (json : Bool)
  | info (sources bookUrl : String) (source : Option String) (json : Bool)
  | toc (sources bookUrl : String) (source : Option String) (json : Bool)
  | content (sources chapterUrl : String) (source : Option String)
  /-- Without a file the document is read from the input. -/
  | eval (rule : String) (file baseUrl : Option String) (list : Bool)
  deriving DecidableEq, Repr

namespace Command

def sourceSwitch : Switch :=
  { name := "source", short := some 's', takesValue := true }

def jsonSwitch : Switch :=
  { name := "json", takesValue := false }

/-- The commands with their arguments. -/
def forms : List (String × Form) :=
  [("search",
      { places := [{ name := "sources", isFile := true }, { name := "keyword" }]
        switches := [jsonSwitch] }),
    ("info",
      { places := [{ name := "sources", isFile := true }, { name := "book_url" }]
        switches := [sourceSwitch, jsonSwitch] }),
    ("toc",
      { places := [{ name := "sources", isFile := true }, { name := "book_url" }]
        switches := [sourceSwitch, jsonSwitch] }),
    ("content",
      { places := [{ name := "sources", isFile := true }, { name := "chapter_url" }]
        switches := [sourceSwitch] }),
    ("eval",
      { places := [{ name := "rule" }]
        switches := [
          { name := "file", short := some 'f', takesValue := true, isFile := true },
          { name := "base-url", short := some 'b', takesValue := true },
          { name := "list", short := some 'l', takesValue := false }] })]

/-- The command with a name and its arguments. -/
def ofValues (name : String) (values : Values) : Command :=
  let value? (name : String) : Option String :=
    (values.find? fun p => p.1 == name).map (·.2)
  let value (name : String) : String := (value? name).getD ""
  let flag (name : String) : Bool := (value? name).isSome
  match name with
  | "search" => .search (value "sources") (value "keyword") (flag "json")
  | "info" => .info (value "sources") (value "book_url") (value? "source") (flag "json")
  | "toc" => .toc (value "sources") (value "book_url") (value? "source") (flag "json")
  | "content" => .content (value "sources") (value "chapter_url") (value? "source")
  | _ => .eval (value "rule") (value? "file") (value? "base-url") (flag "list")

/-- What `help` answers: at most one command may be named. -/
def helpFor (arguments : List String) : Usage :=
  match arguments with
  | [] => .help
  | [name] =>
    if name == "help" || forms.any fun form => form.1 == name then .help else .unknownCommand
  | _ => .unknownCommand

/-- Read the letters behind one dash in front of the command. -/
def readLetters : List Char → Usage
  | 'h' :: _ => .help
  | 'V' :: _ => .version
  | _ => .unknownArgument

/-- Read arguments that begin with a dash or follow two dashes, in front of the
command. -/
def readOutside (trailing : Bool) : List String → Usage
  | [] => .helpForNothing
  | argument :: rest =>
    if trailing then
      if argument == "help" || forms.any fun form => form.1 == argument then .unknownArgument
      else .unknownCommand
    else
      match argument.toList with
      | ['-', '-'] => readOutside true rest
      | '-' :: '-' :: cs =>
        let name := String.ofList (cs.takeWhile (· != '='))
        if name == "help" || name == "version" then
          if cs.contains '=' then .needlessValue else if name == "help" then .help else .version
        else .unknownArgument
      | '-' :: c :: cs => readLetters (c :: cs)
      | _ => .unknownCommand

/-- Read a command. -/
def ofArguments (arguments : List String) : Except Usage Command :=
  match arguments with
  | "help" :: rest => .error (helpFor rest)
  | name :: rest =>
    match forms.find? fun form => form.1 == name with
    | some (_, form) => (form.read rest).map (ofValues name)
    | none => .error (readOutside false arguments)
  | [] => .error .helpForNothing

/-- The files a command reads. -/
def files : Command → List String
  | .search sources _ _ => [sources]
  | .info sources _ _ _ => [sources]
  | .toc sources _ _ _ => [sources]
  | .content sources _ _ => [sources]
  | .eval _ file _ _ => file.toList

/-- The form of a switch in the help. -/
def switchText (switch : Switch) : String :=
  let short := match switch.short with
    | some c => "-" ++ String.singleton c ++ ", "
    | none => ""
  let value := if switch.takesValue then " <" ++ switch.name ++ ">" else ""
  " [" ++ short ++ "--" ++ switch.name ++ value ++ "]"

/-- A line for each command. -/
def helpText : String :=
  "Usage:\n" ++ String.join (forms.map fun (name, form) =>
    "  " ++ name ++ String.join (form.places.map fun place => " <" ++ place.name ++ ">") ++
      String.join (form.switches.map switchText) ++ "\n")

/-- What is written for arguments that are no command. -/
def Usage.message : Usage → String
  | .help | .helpForNothing => helpText
  | .version => "1\n"
  | .unknownArgument => "error: unexpected argument\n"
  | .unknownCommand => "error: unrecognized command\n"
  | .missingArgument => "error: a required argument is missing\n"
  | .badValue => "error: an option has no value\n"
  | .repeatedArgument => "error: an argument is given twice\n"
  | .needlessValue => "error: a flag takes no value\n"

/-- Help and version are answers, all else is an error. -/
def Usage.isAnswer : Usage → Bool
  | .help | .version => true
  | _ => false

end Command

end BookRules
