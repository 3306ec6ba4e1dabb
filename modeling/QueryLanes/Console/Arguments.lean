import QueryLanes.Console.Command
import QueryLanes.Text.Plain

/-!
# Command line arguments

The console is started with the address of a server, the name of a database, and options. Arguments
are read from left to right; the value of an option is looked at when the next argument that is
known has been read, so a later argument that is unknown is reported before a value that is wrong.
After `--` every argument is a name. A report of misuse shows what was typed as plain text.
-/

namespace QueryLanes

/-- What the console is started with. -/
structure Arguments where
  address : String
  database : String
  schema : Bool := false
  write : Bool := false
  batchSize : BatchSize := .number 50
  /-- In milliseconds. -/
  timeout : Option Nat := none
deriving DecidableEq, Repr

namespace Arguments

/-- The options with a value. -/
inductive Valued where
  | batchSize
  | timeout
deriving DecidableEq, Repr

/-- The options without one. -/
inductive Switch where
  | schema
  | write
  | help
  | version
deriving DecidableEq, Repr

def Valued.usage : Valued → String
  | batchSize => "--batch-size <BATCH_SIZE>"
  | timeout => "--timeout-ms <TIMEOUT_MS>"

def Switch.usage : Switch → String
  | schema => "--schema"
  | write => "--write"
  | help => "--help"
  | version => "--version"

/-- Why the console cannot be started. -/
inductive Misuse where
  | unexpected (argument : String)
  | missingValue (option : Valued)
  | invalidValue (option : Valued) (value reason : String)
  | unneededValue (option : Switch) (value : String)
  | repeated (usage : String)
  | missing (names : List String)
deriving DecidableEq, Repr

def Misuse.message : Misuse → String
  | unexpected argument => "error: unexpected argument '" ++ Plain.text argument ++ "' found"
  | missingValue option =>
    "error: a value is required for '" ++ option.usage ++ "' but none was supplied"
  | invalidValue option value reason =>
    "error: invalid value '" ++ Plain.text value ++ "' for '" ++ option.usage ++ "': " ++ reason
  | unneededValue option value =>
    "error: unexpected value '" ++ Plain.text value ++ "' for '" ++ option.usage
      ++ "' found; no more were expected"
  | repeated usage => "error: the argument '" ++ usage ++ "' cannot be used multiple times"
  | missing names =>
    "error: the following required arguments were not provided:"
      ++ String.join (names.map fun n => "\n  " ++ n)

/-- What a command line asks for. -/
inductive Start where
  | run (arguments : Arguments)
  | help
  | version
  | misuse (m : Misuse)
deriving DecidableEq, Repr

/-- What has been read of a command line. -/
structure Draft where
  address : Option String := none
  database : Option String := none
  schema : Bool := false
  write : Bool := false
  batchSize : Option BatchSize := none
  timeout : Option Nat := none
  /-- An option whose value is not looked at yet, and the value if it is there. -/
  pending : Option (Valued × Option String) := none
  /-- Whether only names follow. -/
  namesOnly : Bool := false
deriving DecidableEq, Repr

namespace Draft

/-- Whether an option has its value. -/
def has (d : Draft) : Valued → Bool
  | .batchSize => d.batchSize.isSome
  | .timeout => d.timeout.isSome

/-- Give an option its value. -/
def set (d : Draft) (option : Valued) (value : String) : Except Misuse Draft :=
  if d.has option then .error (.repeated option.usage)
  else match option with
    | .batchSize =>
      match BatchSize.parse value with
      | .ok size => .ok { d with batchSize := some size }
      | .error e => .error (.invalidValue option value e.message)
    | .timeout =>
      match Numeral.read (UInt64.size - 1) value with
      | .ok n => .ok { d with timeout := some n }
      | .error e => .error (.invalidValue option value e.message)

/-- Look at the value that was left aside. -/
def resolve (d : Draft) : Except Misuse Draft :=
  match d.pending with
  | none => .ok d
  | some (option, none) => .error (.missingValue option)
  | some (option, some value) => { d with pending := none }.set option value

/-- Take an argument as a name: the address first, then the database. -/
def name (d : Draft) (argument : String) : Except Misuse Draft :=
  match d.address, d.database with
  | none, _ => return { ← d.resolve with address := some argument }
  | some _, none => return { ← d.resolve with database := some argument }
  | some _, some _ => .error (.unexpected argument)

/-- Switch something on, or say what is asked for instead of a run. -/
def switch (d : Draft) : Switch → Except Misuse (Draft ⊕ Start)
  | .help => .ok (.inr .help)
  | .version => .ok (.inr .version)
  | .schema =>
    if d.schema then .error (.repeated Switch.schema.usage)
    else .ok (.inl { d with schema := true })
  | .write =>
    if d.write then .error (.repeated Switch.write.usage)
    else .ok (.inl { d with write := true })

/-- An option by its name, with the value that `=` attached to it. -/
def option (d : Draft) (name : String) (attached : Option String) :
    Except Misuse (Draft ⊕ Start) :=
  match name with
  | "schema" => switched .schema
  | "write" => switched .write
  | "help" => switched .help
  | "version" => switched .version
  | "batch-size" => valued .batchSize
  | "timeout-ms" => valued .timeout
  | _ => .error (.unexpected ("--" ++ name))
where
  switched (s : Switch) : Except Misuse (Draft ⊕ Start) :=
    match attached with
    | some value => .error (.unneededValue s value)
    | none => do (← d.resolve).switch s
  valued (v : Valued) : Except Misuse (Draft ⊕ Start) := do
    let d ← d.resolve
    match attached with
    | some value => return .inl (← d.set v value)
    | none => return .inl { d with pending := some (v, none) }

/-- An option by its letter. -/
def letter (d : Draft) : Char → Except Misuse (Draft ⊕ Start)
  | 'h' => do (← d.resolve).switch .help
  | 'V' => do (← d.resolve).switch .version
  | c => .error (.unexpected (String.ofList ['-', c]))

/-- Read one argument. -/
def read (d : Draft) (argument : String) : Except Misuse (Draft ⊕ Start) :=
  if d.namesOnly then return .inl (← d.name argument)
  else match argument.toList with
    | ['-', '-'] => return .inl { d with namesOnly := true }
    | '-' :: '-' :: r =>
      let (name, value) := r.span (· != '=')
      d.option (String.ofList name) (value.tail?.map String.ofList)
    | '-' :: c :: _ => d.letter c
    | _ =>
      match d.pending with
      | some (option, none) => return .inl { d with pending := some (option, some argument) }
      | _ => return .inl (← d.name argument)

/-- The command line is at its end. -/
def finish (d : Draft) : Except Misuse Arguments := do
  let d ← d.resolve
  match d.address, d.database with
  | some address, some database =>
    return { address := address, database := database, schema := d.schema, write := d.write,
             batchSize := d.batchSize.getD (.number 50), timeout := d.timeout }
  | address, database =>
    .error (.missing ((if address.isNone then ["<ADDRESS>"] else [])
      ++ (if database.isNone then ["<DATABASE>"] else [])))

/-- Read the remaining arguments. -/
def readAll (d : Draft) : List String → Except Misuse Start
  | [] => .run <$> d.finish
  | argument :: r => do
    match ← d.read argument with
    | .inl d => d.readAll r
    | .inr start => return start

end Draft

/-- What a command line asks for. -/
def parse (arguments : List String) : Start :=
  match ({} : Draft).readAll arguments with
  | .ok start => start
  | .error m => .misuse m

def helpLines : List String :=
  ["A streaming query client that multiplexes paged result sets over one connection",
   "",
   "Usage: sluice_cli [OPTIONS] <ADDRESS> <DATABASE>",
   "",
   "Arguments:",
   "  <ADDRESS>   Server address, e.g. 127.0.0.1:1729",
   "  <DATABASE>  Database to open a session on",
   "",
   "Options:",
   "      --schema                   Open a schema session instead of a data session",
   "      --write                    Open write transactions instead of read transactions",
   "      --batch-size <BATCH_SIZE>  Answers per round trip: a positive integer or 'all' "
     ++ "[default: 50]",
   "      --timeout-ms <TIMEOUT_MS>  Bound on connecting and on waiting for the first batch of "
     ++ "a query",
   "  -h, --help                     Print help",
   "  -V, --version                  Print version"]

def helpText : String := String.join (helpLines.map (· ++ "\n"))

def versionText : String := "sluice 0.1.0\n"

end Arguments

end QueryLanes
