import NetWorth.Asset
/-!
# Invocations

What the arguments of the program ask for.  Options have long names, and some have a letter as well;
an option is given once, and two hyphens on their own end the options.  A value that is an argument
of its own is only looked at when the next argument is read.
-/

namespace NetWorth

/-- What the program is to do. -/
inductive Task where
  /-- Value the holdings of a ledger. -/
  | holdings (trades : String) (currency rates : Option String)
  /-- Ask for one price. -/
  | quote (assetClass : AssetClass) (symbol : String)
  /-- Show the settings. -/
  | settings
deriving DecidableEq

/-- A task and the path of the settings. -/
structure Invocation where
  settingsPath : String
  task : Task
deriving DecidableEq

/-- Why arguments ask for no task. -/
inductive Usage where
  | help
  | wrong
deriving DecidableEq

namespace Invocation

/-- An option: its name, its letter, and whether its value may be empty. -/
structure OptionForm where
  name : String
  letter : Option Char
  mayBeEmpty : Bool

/-- The arguments that are taken: the options, and a test for each other argument in order. -/
structure Grammar where
  options : List OptionForm
  others : List (String → Bool)

/-- The arguments read so far. -/
structure Arguments where
  /-- Options with their values. -/
  options : List (String × String)
  others : List String
  /-- An option whose value is the next argument. -/
  waiting : Option OptionForm
  /-- Whether a value cannot be taken. -/
  isFlawed : Bool

namespace Arguments

/-- No arguments. -/
def empty : Arguments :=
  ⟨[], [], none, false⟩

/-- Adds an option.  It must not be given twice. -/
def addOption (given : Arguments) (form : OptionForm) (value : String) : Arguments :=
  let isRepeated := given.options.any (·.1 == form.name)
  let isMissing := value.isEmpty && !form.mayBeEmpty
  { given with
    options := given.options ++ [(form.name, value)]
    waiting := none
    isFlawed := given.isFlawed || isRepeated || isMissing }

/-- Adds another argument.  There must be a test for it, which it passes. -/
def addOther (grammar : Grammar) (given : Arguments) (argument : String) : Arguments :=
  let isAccepted := grammar.others[given.others.length]?.any (· argument)
  { given with
    others := given.others ++ [argument]
    isFlawed := given.isFlawed || !isAccepted }

/-- The arguments, if every value can be taken and none is awaited. -/
def settled (given : Arguments) : Except Usage Arguments :=
  if given.isFlawed ∨ given.waiting.isSome then .error .wrong else .ok given

/-- The value of an option. -/
def value? (given : Arguments) (name : String) : Option String :=
  (given.options.find? (·.1 == name)).map (·.2)

end Arguments

/-- Whether an argument can stand for a value: it does not look like an option. -/
def isPlain (argument : String) : Bool :=
  argument.toList.head? != some '-' || argument == "-"

/-- Whether an argument asks for help. -/
def isHelp (argument : String) : Bool :=
  argument == "--help" || argument.toList.take 2 == ['-', 'h']

/-- The form that an option argument uses, and the value attached to it. -/
def recognize (forms : List OptionForm) (argument : String) :
    Option (OptionForm × Option (List Char)) :=
  match argument.toList with
  | '-' :: '-' :: long =>
    let name := String.ofList (long.takeWhile (· != '='))
    (forms.find? (·.name == name)).map fun form =>
      (form, (long.dropWhile (· != '=')).tail?)
  | '-' :: c :: value =>
    (forms.find? (·.letter == some c)).map fun form =>
      (form, match value with
        | [] => none
        | '=' :: value => some value
        | value => some value)
  | _ => none

/-- Reads an argument that is not plain.  What was read before has to be settled first, so a mistake
there goes before help; a value attached to an option is settled at once. -/
def readOption (grammar : Grammar) (given : Arguments) (argument : String) :
    Except Usage Arguments := do
  let given ← given.settled
  if isHelp argument then throw .help
  match recognize grammar.options argument with
  | none => throw .wrong
  | some (form, none) => return { given with waiting := some form }
  | some (form, some value) => (given.addOption form (String.ofList value)).settled

/-- Reads arguments one by one; after two hyphens none of them is an option. -/
def readFrom (grammar : Grammar) (given : Arguments) : List String → Except Usage Arguments
  | [] => given.settled
  | argument :: rest =>
    match given.waiting, isPlain argument with
    | some form, true => readFrom grammar (given.addOption form argument) rest
    | none, true => do
      let given ← given.settled
      readFrom grammar (given.addOther grammar argument) rest
    | _, false => do
      if argument = "--" then
        let given ← given.settled
        (rest.foldl (Arguments.addOther grammar) given).settled
      else readFrom grammar (← readOption grammar given argument) rest

/-- Reads all arguments of a task. -/
def readAll (grammar : Grammar) (arguments : List String) : Except Usage Arguments :=
  readFrom grammar .empty arguments

/-- The options before the task. -/
def commonGrammar : Grammar := ⟨[⟨"config", some 'c', false⟩], []⟩

/-- The arguments for the valuation of holdings. -/
def holdingsGrammar : Grammar :=
  ⟨[⟨"trades", none, false⟩, ⟨"currency", none, true⟩, ⟨"rates", none, false⟩], []⟩

/-- The arguments for a price: an asset class and any symbol. -/
def quoteGrammar : Grammar :=
  ⟨[], [fun className => (AssetClass.ofText className).toOption.isSome, fun _ => true]⟩

/-- A task without arguments. -/
def bareGrammar : Grammar := ⟨[], []⟩

/-- Reads the options before a task, and gives them with the name of the task and what follows it.
They need not be settled by then. -/
def readToTask (given : Arguments) :
    List String → Except Usage (Arguments × String × List String)
  | [] => .error .wrong
  | argument :: rest =>
    match given.waiting, isPlain argument with
    | some form, true => readToTask (given.addOption form argument) rest
    | none, true => .ok (given, argument, rest)
    | _, false => do readToTask (← readOption commonGrammar given argument) rest

/-- The names of the tasks. -/
def taskNames : List String := ["holdings", "quote", "config", "help"]

/-- Reads the task of the given name. -/
def readTask (name : String) (arguments : List String) : Except Usage Task :=
  if name = "holdings" then do
    let given ← readAll holdingsGrammar arguments
    match given.value? "trades" with
    | some trades => .ok (.holdings trades (given.value? "currency") (given.value? "rates"))
    | none => .error .wrong
  else if name = "quote" then do
    match (← readAll quoteGrammar arguments).others with
    | [className, symbol] =>
      match AssetClass.ofText className with
      | .ok assetClass => .ok (.quote assetClass symbol)
      | .error _ => .error .wrong
    | _ => .error .wrong
  else if name = "config" then do
    let _ ← readAll bareGrammar arguments
    .ok .settings
  else if name = "help" then
    match arguments with
    | [] => .error .help
    | [other] => .error (if taskNames.contains other then .help else .wrong)
    | _ => .error .wrong
  else .error .wrong

/-- Where settings are looked for if no path is given. -/
def standardPath : String := "assetbook.toml"

/-- What arguments ask for.  The options before the task are settled after those of the task. -/
def ofArguments (arguments : List String) : Except Usage Invocation := do
  let (given, name, rest) ← readToTask .empty arguments
  let task ← readTask name rest
  let given ← given.settled
  .ok ⟨(given.value? "config").getD standardPath, task⟩

end Invocation

end NetWorth
