import StatementLang.Text.Digit
import StatementLang.Text.Quoted

/-!
The arguments of the command: four flags and one program.

A flag has a short and a long form; a long one may be cut short as long as only one flag begins
so, and short ones may be joined. Behind a double dash nothing is a flag. Arguments that look like
flags but name none are complained about at the end, together with those that are too many.
-/

namespace StatementLang

inductive Flag where
  | help | string | trace | verbose
  deriving DecidableEq

namespace Flag

def all : List Flag := [help, string, trace, verbose]

def letter : Flag → Char
  | help => 'h'
  | string => 's'
  | trace => 't'
  | verbose => 'v'

def long : Flag → String
  | help => "--help"
  | string => "--string"
  | trace => "--trace"
  | verbose => "--verbose"

def short (f : Flag) : String := String.ofList ['-', f.letter]

def ofLetter? (c : Char) : Option Flag := all.find? (·.letter = c)

/-- The flag with exactly this short or long form. -/
def ofForm? (form : List Char) : Option Flag :=
  all.find? fun f => form = f.short.toList || form = f.long.toList

/-- The flags whose long form begins so. -/
def beginning (start : List Char) : List Flag :=
  all.filter fun f => start.isPrefixOf f.long.toList

end Flag

/-- Why arguments are refused. -/
inductive UsageError where
  | ambiguous (arg : String) (flags : List Flag)
  /-- A flag has a text attached, which none of them takes. -/
  | attached (f : Flag) (text : String)
  | missingSource
  | unrecognized (args : List String)
  deriving DecidableEq

def UsageError.message : UsageError → String
  | ambiguous arg flags =>
    "ambiguous option: " ++ arg ++ " could match " ++ ", ".intercalate (flags.map Flag.long)
  | attached f text =>
    s!"argument {f.short}/{f.long}: ignored explicit argument {Text.quoted text}"
  | missingSource => "the following arguments are required: source"
  | unrecognized args => "unrecognized arguments: " ++ " ".intercalate args

namespace Options

/-! ### What an argument looks like -/

/-- What an argument before the double dash is. -/
inductive Shape where
  | plain
  /-- A flag in its short form, with the text attached to it. -/
  | short (f : Flag) (attached : Option (List Char))
  | long (f : Flag) (attached : Option (List Char))
  | unknown
  deriving DecidableEq

/-- A minus sign and a number in digits, with or without a point. One line feed may follow. -/
def isNegativeNumber (arg : List Char) : Bool :=
  match arg with
  | '-' :: cs =>
    let body := if cs.getLast? = some '\n' then cs.dropLast else cs
    let whole := body.takeWhile Text.isDecimalDigit
    match body.dropWhile Text.isDecimalDigit with
    | [] => !whole.isEmpty
    | '.' :: ds => !ds.isEmpty && ds.all Text.isDecimalDigit
    | _ => false
  | _ => false

/-- What an argument is whose form names no flag, not even a shortened one. -/
def shapeOfOther (arg : List Char) : Shape :=
  if isNegativeNumber arg || arg.contains ' ' then .plain else .unknown

/-- The flag named by a form, as short or long as the form is written. -/
def named (f : Flag) (form : List Char) (attached : Option (List Char)) : Shape :=
  if form = f.long.toList then .long f attached else .short f attached

/-- What an argument with two dashes is, given its form and the text attached. -/
def shapeOfLong (arg form : List Char) (attached : Option (List Char)) :
    Except UsageError Shape :=
  match Flag.beginning form with
  | [] => .ok (shapeOfOther arg)
  | [f] => .ok (.long f attached)
  | fs => .error (.ambiguous (String.ofList arg) fs)

/-- What an argument before the double dash is. The part before an equals sign is the form of a
flag if it can be one. -/
def shape (arg : List Char) : Except UsageError Shape :=
  match arg with
  | '-' :: c :: cs =>
    let form := arg.takeWhile (· ≠ '=')
    let attached := (arg.dropWhile (· ≠ '=')).tail?
    match Flag.ofForm? arg, Flag.ofForm? form with
    | some f, _ => .ok (named f arg none)
    | none, some f => .ok (named f form attached)
    | none, none =>
      if c = '-' then shapeOfLong arg form attached
      else
        match Flag.ofLetter? c with
        | some f => .ok (.short f (some cs))
        | none => .ok (shapeOfOther arg)
  | _ => .ok .plain

/-! ### What the arguments ask for -/

/-- The flags that a short flag and the text attached to it stand for. -/
def cluster (f : Flag) : List Char → Except UsageError (List Flag)
  | [] => .ok [f]
  | c :: cs =>
    match Flag.ofLetter? c with
    | some next => (cluster next cs).map (f :: ·)
    | none => .error (.attached f (String.ofList (c :: cs)))

/-- The flags that an argument stands for. -/
def flagsOf : Shape → Except UsageError (List Flag)
  | .short f none | .long f none => .ok [f]
  | .short f (some []) => .error (.attached f "")
  | .short f (some cs) => cluster f cs
  | .long f (some text) => .error (.attached f (String.ofList text))
  | .plain | .unknown => .ok []

/-- What has been found among the arguments. -/
structure Found where
  source : Option String
  flags : List Flag
  surplus : List String

/-- Goes through the arguments before the double dash, up to the request for help. -/
def collect : List (String × Shape) → Found → Except UsageError Found
  | [], found => .ok found
  | (arg, shape) :: rest, found =>
    match shape with
    | .plain =>
      match found.source with
      | none => collect rest { found with source := some arg }
      | some _ => collect rest { found with surplus := found.surplus ++ [arg] }
    | .unknown => collect rest { found with surplus := found.surplus ++ [arg] }
    | shape =>
      match flagsOf shape with
      | .error e => .error e
      | .ok flags =>
        let found := { found with flags := found.flags ++ flags }
        if .help ∈ flags then .ok found else collect rest found

/-- Adds what stands behind the double dash, and the double dash itself if no program stands next
to it. -/
def afterDashes (beforeDashes : List (String × Shape)) (rest : List String) (found : Found) :
    Found :=
  match found.source, rest with
  | none, arg :: surplus =>
    { found with source := some arg, surplus := found.surplus ++ surplus }
  | none, [] => { found with surplus := found.surplus ++ ["--"] }
  | some _, rest =>
    let plain := beforeDashes.filter (·.2 = .plain)
    let sourceIsLast := plain.length = 1 && beforeDashes.getLast?.any (·.2 = .plain)
    { found with surplus := found.surplus ++ (if sourceIsLast then rest else "--" :: rest) }

end Options

/-- What the arguments ask the command to do. -/
structure Options where
  source : String
  isString : Bool
  trace : Bool
  verbose : Bool
  deriving DecidableEq

namespace Options

/-- The request made by arguments: none if help is asked for. -/
def ofArgs (args : List String) : Except UsageError (Option Options) := do
  let before := args.takeWhile (· ≠ "--")
  let dashes := args.dropWhile (· ≠ "--")
  let shaped ← before.mapM fun arg => do return (arg, ← shape arg.toList)
  let found ← collect shaped ⟨none, [], []⟩
  if .help ∈ found.flags then return none
  let found := match dashes with
    | [] => found
    | _ :: rest => afterDashes shaped rest found
  match found.source, found.surplus with
  | none, _ => throw .missingSource
  | some _, arg :: more => throw (.unrecognized (arg :: more))
  | some source, [] =>
    return some ⟨source, .string ∈ found.flags, .trace ∈ found.flags, .verbose ∈ found.flags⟩

end Options

end StatementLang
