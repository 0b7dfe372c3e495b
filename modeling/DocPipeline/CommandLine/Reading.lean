import DocPipeline.CommandLine.Value

/-! Reading a command line from left to right. An argument whose value stands apart waits for it,
and what is wrong with its value is only said when the next argument is taken: if that one is
unknown, it is what is reported.
-/

namespace DocPipeline.CommandLine

/-- Why a command line leads to no run: it is wrong, or it asks for something else. -/
inductive Stop where
  | fault (fault : Fault)
  | help
  | version
deriving DecidableEq, Repr

/-- The arguments that were given, with their values, in the order in which they were taken. -/
abbrev Given := List (Argument × Value)

/-- The value of an argument, if it was given. -/
def Given.value? (given : Given) (argument : Argument) : Option Value :=
  (given.find? (·.1 = argument)).map (·.2)

/-- How far a command line has been read. -/
structure Reading where
  given : Given
  /-- The argument that is taken next; its value is none while it waits for one. -/
  pending : Option (Argument × Option String)
  /-- The input was seen. -/
  hasInput : Bool
  /-- Everything that follows is input. -/
  inputOnly : Bool
deriving DecidableEq, Repr

namespace Reading

/-- Nothing has been read. -/
def start : Reading := ⟨[], none, false, false⟩

/-- Takes an argument with the text of its value. -/
def take (r : Reading) (argument : Argument) (s : String) : Except Stop Reading :=
  if (r.given.value? argument).isSome then .error (.fault (.repeated argument))
  else
    match Value.ofText argument s with
    | .ok value => .ok { r with given := r.given ++ [(argument, value)] }
    | .error fault => .error (.fault fault)

/-- Takes the argument that is pending. -/
def settle (r : Reading) : Except Stop Reading :=
  match r.pending with
  | none => .ok r
  | some (argument, none) => .error (.fault (.missing argument))
  | some (argument, some s) => { r with pending := none }.take argument s

/-- Takes a flag. -/
def flag (r : Reading) (argument : Argument) : Except Stop Reading := do
  let r ← r.settle
  match argument with
  | .help => throw .help
  | .version => throw .version
  | _ => r.take argument "true"

/-- Takes an argument with a value that is attached to it, or lets it wait for one. -/
def withValue (r : Reading) (argument : Argument) (attached : Option String)
    : Except Stop Reading := do
  let r ← r.settle
  match attached with
  | some s => r.take argument s
  | none => return { r with pending := some (argument, none) }

/-- Reads what stands behind two dashes: a name, or a name, an equals sign and a value. -/
def long (r : Reading) (cs : List Char) : Except Stop Reading :=
  let name := String.ofList (cs.takeWhile (· != '='))
  let attached :=
    match cs.dropWhile (· != '=') with
    | _ :: value => some (String.ofList value)
    | [] => none
  match Argument.ofLongName? name with
  | none => .error (.fault (.unexpected ("--" ++ name)))
  | some argument =>
    if argument.shape = .flag then
      match attached with
      | some value => .error (.fault (.needless argument value))
      | none => r.flag argument
    else r.withValue argument attached

/-- The value behind a letter; an equals sign before it does not belong to it. -/
def attachedTo : List Char → Option String
  | [] => none
  | '=' :: rest => some (String.ofList rest)
  | cs => some (String.ofList cs)

/-- Reads what stands behind one dash: letters of flags, of which the last one may be that of an
argument with a value.
-/
def short (r : Reading) : List Char → Except Stop Reading
  | [] => .ok r
  | c :: rest =>
    match Argument.ofShortName? c with
    | none => .error (.fault (.unexpected ("-" ++ String.singleton c)))
    | some argument =>
      if argument.shape = .flag then do short (← r.flag argument) rest
      else r.withValue argument (attachedTo rest)

/-- Reads the input, of which there is one. -/
def positional (r : Reading) (s : String) : Except Stop Reading := do
  if r.hasInput then throw (.fault (.unexpected s))
  let r ← r.settle
  return { r with pending := some (.input, some s), hasInput := true }

/-- Reads what begins with no dash, or consists of one. -/
def plain (r : Reading) (s : String) : Except Stop Reading :=
  match r.pending with
  | some (argument, none) => .ok { r with pending := some (argument, some s) }
  | _ => r.positional s

/-- Reads the next of the texts that make up a command line. -/
def next (r : Reading) (s : String) : Except Stop Reading :=
  if r.inputOnly then r.positional s
  else
    match s.toList with
    | ['-', '-'] => .ok { r with inputOnly := true }
    | '-' :: '-' :: rest => r.long rest
    | ['-'] => r.plain s
    | '-' :: rest => r.short rest
    | _ => r.plain s

/-- Adds the value of an environment variable where the argument was not given. -/
def fromVariable (env : List (String × String)) (r : Reading) (argument : Argument)
    : Except Stop Reading :=
  if (r.given.value? argument).isSome then .ok r
  else
    match argument.variableName?.bind (List.lookup · env) with
    | some s => r.take argument s
    | none => .ok r

/-- Arguments that contradict each other, in the order in which they were taken. -/
def contradicting (given : Given) : List Argument :=
  (given.map (·.1)).filter fun argument =>
    argument = .reuseGraph || argument = .skipCreate

end Reading

/-- What a command line gives, together with its environment. -/
def Given.ofArguments (args : List String) (env : List (String × String))
    : Except Stop Given := do
  let r ← args.foldlM Reading.next .start
  let r ← r.settle
  let r ← Argument.all.foldlM (Reading.fromVariable env) { r with pending := none }
  match Reading.contradicting r.given with
  | first :: second :: _ => throw (.fault (.conflict first second))
  | _ => return r.given

end DocPipeline.CommandLine
