import Chip8.Text.Decimal

/-!
Flags on a command line and the values they take.

A long flag may be shortened to any beginning that only it has.
Flags of one letter may be joined behind one dash, and the last of them may have its value attached.
-/

namespace Chip8

/-- The flags of the program. -/
inductive Flag where
  | help
  | rom
  | program
  | inlineSource
  | mode
  | maxCycles
  | seed
  | keys
  | noIdleHalt
  | realtime
  | instructionRate
  | duration
  | trace
  | quiet
  | showDisplay
  | logLevel
  deriving DecidableEq

namespace Flag

/-- The spellings of all flags. -/
def spellings : List (String × Flag) :=
  [ ("--help", .help), ("-h", .help), ("--rom", .rom), ("-r", .rom), ("--program", .program),
    ("-p", .program), ("--inline", .inlineSource), ("-i", .inlineSource), ("--mode", .mode),
    ("-m", .mode), ("--max-cycles", .maxCycles), ("--seed", .seed), ("--keys", .keys),
    ("-k", .keys), ("--no-idle-halt", .noIdleHalt), ("--realtime", .realtime),
    ("--hz", .instructionRate), ("--duration", .duration), ("--trace", .trace), ("-t", .trace),
    ("--quiet", .quiet), ("-q", .quiet), ("--show-display", .showDisplay), ("-d", .showDisplay),
    ("--log-level", .logLevel) ]

/-- Whether a flag needs a value. -/
def takesValue : Flag → Bool
  | .help | .noIdleHalt | .realtime | .trace | .quiet | .showDisplay => false
  | _ => true

/-- The flag of a full spelling. -/
def ofSpelling? (spelling : List Char) : Option Flag :=
  spellings.lookup (String.ofList spelling)

/-- The flags that have a spelling with the given beginning. -/
def ofBeginning (beginning : List Char) : List Flag :=
  (spellings.filter fun entry => beginning.isPrefixOf entry.1.toList).map Prod.snd

end Flag

/-- Why a command line was refused. -/
inductive UsageError where
  /-- The user asked for help instead. -/
  | helpRequested
  | unknownArgument (text : List Char)
  | ambiguousFlag (text : List Char)
  | missingValue (flag : Flag)
  | superfluousValue (flag : Flag) (text : List Char)
  | badValue (flag : Flag) (text : List Char)
  | conflictingSources
  | missingSource
  | rejected (reason : String)

/-- The long spelling of a flag. -/
def Flag.name (flag : Flag) : String :=
  ((Flag.spellings.find? fun entry => entry.2 == flag).map Prod.fst).getD ""

/-- The sentence that reports a refusal. -/
def UsageError.message : UsageError → String
  | .helpRequested => "help was asked for"
  | .unknownArgument text => s!"unrecognized argument: {String.ofList text}"
  | .ambiguousFlag text => s!"ambiguous flag: {String.ofList text}"
  | .missingValue flag => s!"{flag.name} needs a value"
  | .superfluousValue flag text => s!"{flag.name} takes no value: {String.ofList text}"
  | .badValue flag text => s!"{flag.name} does not take this value: {String.ofList text}"
  | .conflictingSources => "only one of --rom, --program and --inline is allowed"
  | .missingSource => "one of --rom, --program or --inline is required"
  | .rejected reason => reason

/-- What a single argument is. -/
inductive Argument where
  /-- A value, or a text that stands for itself. -/
  | plain (text : List Char)
  /-- A flag, with the value behind its equals sign if there is one. -/
  | spelled (flag : Flag) (value : Option (List Char))
  /-- Flags of one letter behind one dash: the first of them, and all that follows it. -/
  | joined (first : Flag) (rest : List Char)

namespace Argument

/-- Text up to the first equals sign, and the text behind it if there is one. -/
def splitEquals (text : List Char) : List Char × Option (List Char) :=
  match text.dropWhile (· != '=') with
  | _ :: behind => (text.takeWhile (· != '='), some behind)
  | [] => (text, none)

/-- Text without the newline that may end it. -/
def withoutNewline (text : List Char) : List Char :=
  if text.getLast? = some '\n' then text.dropLast else text

/-- Whether a text is a negative number in digits, with at most one point. -/
def isNegativeNumber (text : List Char) : Bool :=
  match withoutNewline text with
  | '-' :: digits =>
    match digits.dropWhile isDecimal with
    | [] => !digits.isEmpty
    | '.' :: fraction => !fraction.isEmpty && fraction.all isDecimal
    | _ => false
  | _ => false

/-- A text that begins with a dash and spells no flag: a value if it looks like one. -/
def unspelled (text : List Char) : Except UsageError Argument :=
  if isNegativeNumber text || text.contains ' ' then .ok (.plain text)
  else .error (.unknownArgument text)

/-- A text that begins with two dashes: a flag that it shortens, or else something unspelled. -/
def ofLong (text : List Char) : Except UsageError Argument :=
  let (beginning, behind) := splitEquals text
  match Flag.ofBeginning beginning with
  | [] => unspelled text
  | [only] => .ok (.spelled only behind)
  | _ => .error (.ambiguousFlag text)

/-- A text that begins with one dash: joined flags, or else something unspelled. -/
def ofShort (text : List Char) : Except UsageError Argument :=
  match Flag.ofSpelling? (text.take 2) with
  | some first => .ok (.joined first (text.drop 2))
  | none => unspelled text

/-- A text that begins with a dash and another character. -/
def ofDashed (second : Char) (text : List Char) : Except UsageError Argument :=
  match splitEquals text with
  | (spelling, behind) =>
    match Flag.ofSpelling? spelling with
    | some only => .ok (.spelled only behind)
    | none => if second = '-' then ofLong text else ofShort text

/-- What the text of an argument is. -/
def ofText (text : List Char) : Except UsageError Argument :=
  match text with
  | '-' :: second :: _ => ofDashed second text
  | _ => .ok (.plain text)

end Argument

/-- A flag with the value that it takes. -/
structure Setting where
  flag : Flag
  value : List Char := []

/-- Settings in order, and a last flag whose value is still missing. -/
abbrev OpenSettings := List Setting × Option Flag

namespace Setting

/-- The setting of a flag that has a value behind an equals sign, or has none. -/
def ofSpelled (flag : Flag) : Option (List Char) → Except UsageError OpenSettings
  | none => .ok (if flag.takesValue then ([], some flag) else ([⟨flag, []⟩], none))
  | some value =>
    if flag.takesValue then .ok ([⟨flag, value⟩], none) else .error (.superfluousValue flag value)

/-- The settings of joined flags, the last of which may have its value attached. -/
def ofJoined (flag : Flag) (rest : List Char) : Except UsageError OpenSettings :=
  if flag.takesValue then .ok ([⟨flag, rest⟩], none)
  else
    match rest with
    | [] => .ok ([⟨flag, []⟩], none)
    | letter :: behind =>
      match Flag.ofSpelling? ['-', letter] with
      | none => .error (.superfluousValue flag rest)
      | some following =>
        let others :=
          match behind with
          | [] => ofSpelled following none
          | '=' :: value => ofSpelled following (some value)
          | _ => ofJoined following behind
        others.map fun (settings, missing) => (⟨flag, []⟩ :: settings, missing)

/-- The settings of an argument. -/
def ofArgument : Argument → Except UsageError OpenSettings
  | .plain text => .error (.unknownArgument text)
  | .spelled flag value => ofSpelled flag value
  | .joined first rest => ofJoined first rest

/-- The settings of a command line, in which a flag may take the next argument as its value. -/
def ofArguments : List Argument → Except UsageError (List Setting)
  | [] => .ok []
  | argument :: rest =>
    match ofArgument argument with
    | .error error => .error error
    | .ok (settings, none) => (ofArguments rest).map (settings ++ ·)
    | .ok (settings, some flag) =>
      match rest with
      | .plain text :: others => (ofArguments others).map (settings ++ ⟨flag, text⟩ :: ·)
      | _ => .error (.missingValue flag)

/-- The settings that the texts of a command line stand for. -/
def ofTexts (texts : List (List Char)) : Except UsageError (List Setting) := do
  ofArguments (← texts.mapM Argument.ofText)

end Setting

end Chip8
