/-!
# Arguments of a command

A command takes values in places of their own, options with a value and flags.
Options and flags begin with a dash and may stand anywhere; behind `--` every
argument is a value.  An option takes its value from behind an equals sign or
from the next argument, and a short one also from the letters behind it.
Arguments are read from left to right, and the first fault counts.
-/

namespace BookRules.Command

/-- What is wrong with arguments, or what is asked for instead of a command. -/
inductive Usage
  | help
  | version
  /-- Help, because nothing was asked for. -/
  | helpForNothing
  | unknownArgument
  | unknownCommand
  | missingArgument
  /-- An option without a value, or an empty name of a file. -/
  | badValue
  /-- An option or a flag that stands twice. -/
  | repeatedArgument
  /-- A flag with a value. -/
  | needlessValue
  deriving DecidableEq, Repr

/-- An option or a flag. -/
structure Switch where
  name : String
  short : Option Char := none
  takesValue : Bool
  /-- The value is the name of a file, which is not empty. -/
  isFile : Bool := false
  deriving DecidableEq, Repr

/-- A value in a place of its own. -/
structure Place where
  name : String
  isFile : Bool := false
  deriving DecidableEq, Repr

/-- The arguments a command takes; it needs every place. -/
structure Form where
  places : List Place
  switches : List Switch
  deriving DecidableEq, Repr

/-- Arguments that were read: names with their values. -/
abbrev Values :=
  List (String × String)

namespace Form

/-- What is being read. -/
structure Reading where
  /-- Places without a value. -/
  places : List Place
  values : Values := []
  /-- An option or place whose value has not been taken over. -/
  pending : Option (Switch × Option String) := none
  /-- The next argument is the value of the option. -/
  wanting : Bool := false

/-- The switch for help, which every command takes. -/
def helpSwitch : Switch :=
  { name := "help", short := some 'h', takesValue := false }

/-- Take over a value. -/
def take (reading : Reading) (switch : Switch) (value : Option String) :
    Except Usage Reading :=
  match value with
  | none => .error .badValue
  | some value =>
    if (reading.values.any fun p => p.1 == switch.name) then .error .repeatedArgument
    else if switch.isFile && value.isEmpty then .error .badValue
    else .ok { reading with values := reading.values ++ [(switch.name, value)] }

/-- Take over the value that is pending. -/
def settle (reading : Reading) : Except Usage Reading :=
  match reading.pending with
  | none => .ok reading
  | some (switch, value) => take { reading with pending := none, wanting := false } switch value

/-- Read a switch; `attached` is the value that is written together with it. -/
def useSwitch (reading : Reading) (switch : Switch) (attached : Option String) :
    Except Usage Reading := do
  let reading ← settle reading
  if switch == helpSwitch then .error .help
  else if switch.takesValue then
    match attached with
    | some value => take reading switch (some value)
    | none => return { reading with pending := some (switch, none), wanting := true }
  else take reading switch (some "")

/-- Read an argument that begins with two dashes, without them. -/
def readLong (switches : List Switch) (reading : Reading) (cs : List Char) :
    Except Usage Reading :=
  let name := cs.takeWhile (· != '=')
  let attached := match cs.drop name.length with
    | _ :: value => some (String.ofList value)
    | [] => none
  match switches.find? fun switch => switch.name.toList == name with
  | none => .error .unknownArgument
  | some switch =>
    if attached.isSome && !switch.takesValue then .error .needlessValue
    else useSwitch reading switch attached

/-- Read the letters behind one dash. -/
def readShort (switches : List Switch) (reading : Reading) : List Char → Except Usage Reading
  | [] => .ok reading
  | c :: rest =>
    match switches.find? fun switch => switch.short == some c with
    | none => .error .unknownArgument
    | some switch =>
      if switch.takesValue then
        let attached := match rest with
          | [] => none
          | '=' :: value => some (String.ofList value)
          | value => some (String.ofList value)
        useSwitch reading switch attached
      else do readShort switches (← useSwitch reading switch none) rest

/-- Read a value for the next place. -/
def readPlace (reading : Reading) (argument : String) : Except Usage Reading :=
  match reading.places with
  | [] => .error .unknownArgument
  | place :: places => do
    let reading ← settle reading
    let slot : Switch := { name := place.name, takesValue := true, isFile := place.isFile }
    return { reading with places, pending := some (slot, some argument), wanting := false }

/-- Read arguments; behind two dashes everything is a value. -/
def readAll (switches : List Switch) : Reading → Bool → List String → Except Usage Reading
  | reading, _, [] => .ok reading
  | reading, true, argument :: rest => do
    readAll switches (← readPlace reading argument) true rest
  | reading, false, argument :: rest =>
    match argument.toList with
    | ['-', '-'] => readAll switches reading true rest
    | '-' :: '-' :: cs => do readAll switches (← readLong switches reading cs) false rest
    | '-' :: c :: cs => do readAll switches (← readShort switches reading (c :: cs)) false rest
    | _ =>
      if reading.wanting then
        let pending := reading.pending.map fun (switch, _) => (switch, some argument)
        readAll switches { reading with pending, wanting := false } false rest
      else do readAll switches (← readPlace reading argument) false rest

/-- Read the arguments of a command. -/
def read (form : Form) (arguments : List String) : Except Usage Values := do
  let reading ← readAll (helpSwitch :: form.switches) { places := form.places } false arguments
  let reading ← settle reading
  if reading.places.isEmpty then return reading.values else throw .missingArgument

end Form

end BookRules.Command
