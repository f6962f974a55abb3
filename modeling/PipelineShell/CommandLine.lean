import PipelineShell.Text.Digit
import PipelineShell.Text.Quoted

/-!
# The command line

The options of the shell and the reading of its arguments. Long options may be cut short as long as
they stay unambiguous, a value may be glued to its option, and a word that looks like a negative
number or holds a space is no option. The arguments are read from left to right, and the first
fault or the first request for help settles the matter.
-/

namespace PipelineShell

/-- The options. -/
inductive Switch
  | help
  | command
  | logLevel
  deriving DecidableEq, Repr

namespace Switch

/-- The spellings of the options, in the order in which they are offered. -/
def spellings : List (String × Switch) :=
  [("-h", .help), ("--help", .help), ("-c", .command), ("--log-level", .logLevel)]

/-- The option of a spelling. -/
def ofSpelling? (word : String) : Option Switch := spellings.lookup word

/-- How a fault names an option. -/
def name (switch : Switch) : String :=
  "/".intercalate ((spellings.filter fun s => s.2 = switch).map Prod.fst)

end Switch

/-- What is wrong with the arguments. -/
inductive UsageFault
  /-- A shortened option may mean any of `options`. -/
  | ambiguous (argument : String) (options : List String)
  /-- An option lacks its value. -/
  | lacksValue (switch : Switch)
  /-- An option without a value is given one. -/
  | unwantedValue (switch : Switch) (value : String)
  /-- Arguments mean nothing. -/
  | unrecognised (arguments : List String)
  deriving DecidableEq, Repr

/-- What the shell is to do. -/
inductive Task
  /-- Read lines from the terminal. -/
  | dialogue
  /-- Run one line. -/
  | line (text : String)
  /-- Run one line, but none was given. -/
  | noLine
  deriving DecidableEq, Repr

/-- What the arguments ask for. -/
structure Settings where
  task : Task
  logLevel : Option String
  deriving DecidableEq, Repr

/-- How the reading of the arguments ends. -/
inductive Usage
  | run (settings : Settings)
  | help
  | misuse (fault : UsageFault)
  deriving DecidableEq, Repr

namespace Usage

-- ---------------------------------------------------------------------------
-- Arguments
-- ---------------------------------------------------------------------------

/-- What an argument is taken for. -/
inductive Argument
  | operand
  /-- A known option in one of its spellings, with the value glued to it. -/
  | option (switch : Switch) (spelling : String) (glued : Option String)
  /-- An option that is not known. -/
  | unknown
  deriving DecidableEq, Repr

/-- Whether a word looks like a negative number, a line feed after it not counted. -/
def looksNegative (word : List Char) : Bool :=
  match if word.getLast? = some '\n' then word.dropLast else word with
  | '-' :: number =>
    let whole := number.takeWhile Text.isDigit
    match number.dropWhile Text.isDigit with
    | [] => !whole.isEmpty
    | '.' :: part => !part.isEmpty && part.all Text.isDigit
    | _ => false
  | _ => false

/-- A word up to its first equals sign, and what stands after the sign if there is one. -/
def cutAtEquals (word : String) : String × Option String :=
  let before := word.toList.takeWhile (· ≠ '=')
  match word.toList.dropWhile (· ≠ '=') with
  | [] => (word, none)
  | _ :: after => (String.ofList before, some (String.ofList after))

/-- The options that a word may be short for, or may start with. -/
def expansions (word : String) : List (Switch × String × Option String) :=
  if "--".toList.isPrefixOf word.toList then
    let (short, value) := cutAtEquals word
    (Switch.spellings.filter fun s => short.toList.isPrefixOf s.1.toList).map fun s =>
      (s.2, s.1, value)
  else
    let short := String.ofList (word.toList.take 2)
    (Switch.spellings.filter fun s => s.1 = short).map fun s =>
      (s.2, s.1, some (String.ofList (word.toList.drop 2)))

/-- What a word is taken for. -/
def classify (word : String) : Except UsageFault Argument :=
  if word.toList.head? ≠ some '-' then .ok .operand
  else
    match Switch.ofSpelling? word with
    | some switch => .ok (.option switch word none)
    | none =>
      if word = "-" then .ok .operand
      else
        let (spelling, value) := cutAtEquals word
        match Switch.ofSpelling? spelling, value with
        | some switch, some value => .ok (.option switch spelling (some value))
        | _, _ =>
          match expansions word with
          | [(switch, spelling, glued)] => .ok (.option switch spelling glued)
          | [] =>
            if looksNegative word.toList || word.toList.contains ' ' then .ok .operand
            else .ok .unknown
          | several => .error (.ambiguous word (several.map fun s => s.2.1))

/-- What the words are taken for. Two dashes alone make operands of all words after them; the
dashes themselves are no value. -/
def classifyAll : List String → Except UsageFault (List (String × Argument))
  | [] => .ok []
  | word :: rest =>
    if word = "--" then .ok ((word, .unknown) :: rest.map (·, .operand))
    else
      match classify word with
      | .error fault => .error fault
      | .ok argument => (classifyAll rest).map ((word, argument) :: ·)

-- ---------------------------------------------------------------------------
-- Reading
-- ---------------------------------------------------------------------------

/-- Settings with one of them given. Two dashes are no value: they leave the option empty. -/
def give (settings : Settings) : Switch → String → Settings
  | .help, _ => settings
  | .command, value => { settings with task := if value = "--" then .noLine else .line value }
  | .logLevel, value => { settings with logLevel := if value = "--" then none else some value }

/-- The letters glued to a request for help are options too. The help is given once all of them
have been looked at: the first fault comes before it. `follows` says that the next argument can be
a value. -/
def readCluster (follows : Bool) : List Char → Usage
  | [] => .misuse (.unwantedValue .help "")
  | c :: rest =>
    match Switch.ofSpelling? (String.ofList ['-', c]), rest with
    | none, _ => .misuse (.unwantedValue .help (String.ofList (c :: rest)))
    | some .help, [] => .help
    | some .help, d :: others => readCluster follows (d :: others)
    | some switch, [] => if follows then .help else .misuse (.lacksValue switch)
    | some _, _ => .help

/-- Whether the first of the arguments can be a value. -/
def startsWithOperand : List (String × Argument) → Bool
  | (_, .operand) :: _ => true
  | _ => false

/-- Read the arguments. `extra` holds those that meant nothing so far. -/
def read (settings : Settings) (extra : List String) : List (String × Argument) → Usage
  | [] => if extra = [] then .run settings else .misuse (.unrecognised extra)
  | (word, .operand) :: rest => read settings (extra ++ [word]) rest
  | (word, .unknown) :: rest => read settings (extra ++ [word]) rest
  | (_, .option .help spelling glued) :: rest =>
    match glued with
    | none => .help
    | some value =>
      if spelling = "-h" then readCluster (startsWithOperand rest) value.toList
      else .misuse (.unwantedValue .help value)
  | (_, .option switch _ (some value)) :: rest => read (give settings switch value) extra rest
  | (_, .option switch _ none) :: (value, .operand) :: rest =>
    read (give settings switch value) extra rest
  | (_, .option switch _ none) :: _ => .misuse (.lacksValue switch)

/-- What the arguments ask for. -/
def ofArguments (arguments : List String) : Usage :=
  match classifyAll arguments with
  | .error fault => .misuse fault
  | .ok classified => read ⟨.dialogue, none⟩ [] classified

end Usage

-- ---------------------------------------------------------------------------
-- Text
-- ---------------------------------------------------------------------------

/-- The wording of a fault. -/
def UsageFault.message : UsageFault → String
  | .ambiguous argument options =>
    "ambiguous option: " ++ argument ++ " could match " ++ ", ".intercalate options
  | .lacksValue switch => "argument " ++ switch.name ++ ": expected one argument"
  | .unwantedValue switch value =>
    "argument " ++ switch.name ++ ": ignored explicit argument " ++ Text.quoted value
  | .unrecognised arguments => "unrecognized arguments: " ++ " ".intercalate arguments

namespace Usage

/-- The line that sums the options up. -/
def summary : String := "usage: lineshell [-h] [-c COMMAND] [--log-level LOG_LEVEL]\n"

/-- The help. -/
def helpText : String :=
  summary ++ "\nInteractive command interpreter\n\noptions:\n"
    ++ "  -h, --help            show this help message and exit\n"
    ++ "  -c COMMAND            execute COMMAND and exit with its status\n"
    ++ "  --log-level LOG_LEVEL\n"
    ++ "                        DEBUG, INFO, WARNING (default), ERROR; or\n"
    ++ "                        $LINESHELL_LOG_LEVEL\n"

/-- What is written about a fault. -/
def faultText (fault : UsageFault) : String :=
  summary ++ "lineshell: error: " ++ fault.message ++ "\n"

end Usage

end PipelineShell
