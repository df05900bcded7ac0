import EntityQuery.Numeral.Integer

/-!
# Command line options

The options of the program and how they are read. An option with a value takes it from behind an
equals sign, from the rest of a group of short options, or from the next argument, which must not
look like an option. No option may be given twice, and there are no arguments but options. The
arguments are read from the left; a request for help or for the version ends the reading.
-/

namespace EntityQuery.CommandLine

/-- An option that takes a value. -/
inductive ValueOption where
  | entity
  | filter
  | select
  | sort
  | page
  | limit
  | dateFormat
  | rows
  | seed
  deriving DecidableEq

/-- An option without a value. -/
inductive Flag where
  | explain
  | json
  | debug
  | help
  | version
  deriving DecidableEq

/-- What an option is. -/
inductive OptionKind where
  | value (option : ValueOption)
  | flag (flag : Flag)
  deriving DecidableEq

def longOption? : String → Option OptionKind
  | "entity" => some (.value .entity)
  | "filter" => some (.value .filter)
  | "select" => some (.value .select)
  | "sort" => some (.value .sort)
  | "page" => some (.value .page)
  | "limit" => some (.value .limit)
  | "date-format" => some (.value .dateFormat)
  | "rows" => some (.value .rows)
  | "seed" => some (.value .seed)
  | "explain" => some (.flag .explain)
  | "json" => some (.flag .json)
  | "debug" => some (.flag .debug)
  | "help" => some (.flag .help)
  | "version" => some (.flag .version)
  | _ => none

def shortOption? : Char → Option OptionKind
  | 'e' => some (.value .entity)
  | 'f' => some (.value .filter)
  | 's' => some (.value .select)
  | 'p' => some (.value .page)
  | 'l' => some (.value .limit)
  | 'n' => some (.value .rows)
  | 'd' => some (.flag .debug)
  | 'h' => some (.flag .help)
  | 'V' => some (.flag .version)
  | _ => none

/-- What was read so far: the values of options and the flags that were given. -/
structure Given where
  values : List (ValueOption × String)
  flags : List Flag

def Given.value? (g : Given) (o : ValueOption) : Option String :=
  (g.values.find? (·.1 = o)).map (·.2)

/-- Why arguments are refused. -/
inductive UsageError where
  | unknownArgument (argument : String)
  | missingValue (argument : String)
  | unneededValue (argument : String)
  | repeated (argument : String)
  | badNumber (value : String)
  | conflict
  deriving DecidableEq

def UsageError.message : UsageError → String
  | .unknownArgument argument => "unexpected argument '" ++ argument ++ "' found"
  | .missingValue argument => "a value is required for '" ++ argument ++ "' but none was supplied"
  | .unneededValue argument => "unexpected value for '" ++ argument ++ "' found; no more were expected"
  | .repeated argument => "the argument '" ++ argument ++ "' cannot be used multiple times"
  | .badNumber value => "invalid value '" ++ value ++ "' for a number"
  | .conflict => "the argument '--page' cannot be used with '--limit'"

/-- Why the reading of arguments ends early. -/
inductive Stop where
  | help
  | version
  | usage (error : UsageError)
  deriving DecidableEq

def ValueOption.isNumber : ValueOption → Bool
  | .rows | .seed => true
  | _ => false

def Given.setValue (g : Given) (argument : String) (o : ValueOption) (value : String) :
    Except Stop Given :=
  if (g.value? o).isSome then .error (.usage (.repeated argument))
  else if o.isNumber && !(Numeral.readUInt64 value.toList).toBool then
    .error (.usage (.badNumber value))
  else .ok { g with values := (o, value) :: g.values }

def Given.setFlag (g : Given) (argument : String) : Flag → Except Stop Given
  | .help => .error .help
  | .version => .error .version
  | f =>
    if f ∈ g.flags then .error (.usage (.repeated argument))
    else .ok { g with flags := f :: g.flags }

/-- A group of short options: what they give, and the option that waits for the next argument. -/
def readShorts (g : Given) (argument : String) :
    List Char → Except Stop (Given × Option ValueOption)
  | [] => .ok (g, none)
  | c :: cs =>
    match shortOption? c, cs with
    | none, _ => .error (.usage (.unknownArgument argument))
    | some (.flag f), cs => do
      let g ← g.setFlag argument f
      readShorts g argument cs
    | some (.value o), [] => .ok (g, some o)
    | some (.value o), '=' :: value => do
      let g ← g.setValue argument o (String.ofList value)
      return (g, none)
    | some (.value o), value => do
      let g ← g.setValue argument o (String.ofList value)
      return (g, none)

/-- A long option: what it gives, and whether it waits for the next argument. -/
def readLong (g : Given) (argument : String) (cs : List Char) :
    Except Stop (Given × Option ValueOption) :=
  let name := String.ofList (cs.takeWhile (· ≠ '='))
  match longOption? name, cs.dropWhile (· ≠ '=') with
  | none, _ => .error (.usage (.unknownArgument argument))
  | some (.flag f), [] => do
    let g ← g.setFlag argument f
    return (g, none)
  | some (.flag _), _ => .error (.usage (.unneededValue argument))
  | some (.value o), [] => .ok (g, some o)
  | some (.value o), _ :: value => do
    let g ← g.setValue argument o (String.ofList value)
    return (g, none)

/-- Reads the arguments from the left; `waiting` is the option whose value comes next. -/
def readFrom (g : Given) (waiting : Option ValueOption) : List String → Except Stop Given
  | [] =>
    match waiting with
    | none => .ok g
    | some _ => .error (.usage (.missingValue ""))
  | argument :: rest =>
    let looksLikeOption :=
      match argument.toList with
      | '-' :: _ :: _ => true
      | _ => false
    match waiting, looksLikeOption, argument.toList with
    | some _, true, _ => .error (.usage (.missingValue argument))
    | some o, false, _ => do
      let g ← g.setValue argument o argument
      readFrom g none rest
    -- behind two dashes there are no options, and no other arguments are known
    | none, true, ['-', '-'] =>
      match rest with
      | [] => .ok g
      | argument :: _ => .error (.usage (.unknownArgument argument))
    | none, true, '-' :: '-' :: cs => do
      let (g, waiting) ← readLong g argument cs
      readFrom g waiting rest
    | none, true, _ :: cs => do
      let (g, waiting) ← readShorts g argument cs
      readFrom g waiting rest
    | none, _, _ => .error (.usage (.unknownArgument argument))

/-- The options of a run. -/
structure Options where
  entity : String
  filter : Option String
  select : Option String
  sort : Option String
  page : Option String
  limit : Option String
  dateFormat : Option String
  rows : UInt64
  seed : UInt64
  explain : Bool
  json : Bool

def Given.number (g : Given) (o : ValueOption) (default : UInt64) : UInt64 :=
  match (g.value? o).map fun s => Numeral.readUInt64 s.toList with
  | some (.ok n) => n
  | _ => default

def Options.read (arguments : List String) : Except Stop Options := do
  let g ← readFrom ⟨[], []⟩ none arguments
  if (g.value? .page).isSome && (g.value? .limit).isSome then throw (.usage .conflict)
  return {
    entity := (g.value? .entity).getD "Car"
    filter := g.value? .filter
    select := g.value? .select
    sort := g.value? .sort
    page := g.value? .page
    limit := g.value? .limit
    dateFormat := g.value? .dateFormat
    rows := g.number .rows 50
    seed := g.number .seed 42
    explain := g.flags.contains .explain
    json := g.flags.contains .json }

end EntityQuery.CommandLine
