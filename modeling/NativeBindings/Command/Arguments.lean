import NativeBindings.Text.Segment

/-!
# Arguments

What the words of a command line ask for.

## Main definitions

- `Invocation` — what can be asked for
- `Invocation.parse?` — the invocation of a command line, if it is well formed
-/

namespace NativeBindings

/-- The commands. -/
inductive CommandName where
  | generate
  | check
  deriving DecidableEq

/-- What a command line asks for. -/
inductive Invocation where
  | generate (config output : String) (dryRun : Bool)
  | check (config : String) (json : Bool)
  /-- The help text of a command, or of the program. -/
  | help (command : Option CommandName)
  /-- The help text of the help command. -/
  | helpOnHelp
  | version
  deriving DecidableEq

/-- An option of a command. -/
structure CommandOption where
  long : String
  short : Option Char
  takesValue : Bool
  deriving DecidableEq

namespace CommandName

/-- The command of a word. -/
def ofWord? (word : String) : Option CommandName :=
  if word = "generate" then some generate else if word = "check" then some check else none

/-- The options of a command, besides those for help. -/
def options : CommandName → List CommandOption
  | generate => [⟨"config", some 'c', true⟩, ⟨"output", some 'o', true⟩, ⟨"dry-run", none, false⟩]
  | check => [⟨"config", some 'c', true⟩, ⟨"json", none, false⟩]

end CommandName

/-- The options that have been met, with their values; a flag has an empty one. -/
abbrev GivenOptions := List (String × String)

/-- What the options of a command come to. -/
inductive ParsedOptions where
  | given (options : GivenOptions)
  | helpWanted
  deriving DecidableEq

namespace ParsedOptions

/-- Notes an option, which can be given only once. A value is not empty. -/
def note? (o : CommandOption) (value : String) (met : GivenOptions) : Option GivenOptions :=
  if (met.lookup o.long).isSome || (o.takesValue && value.isEmpty) then none
  else some (met ++ [(o.long, value)])

/-- A word that stands for options and not for a value. -/
def looksLikeOption (word : String) : Bool :=
  match word.toList with
  | '-' :: _ :: _ => true
  | _ => false

/-- The letters of short options up to one that takes a value: the flags, and the option with the
text behind it. Help can be asked for between flags. -/
def shortOptions? (os : List CommandOption) :
    List Char → GivenOptions → Option (ParsedOptions × Option (CommandOption × List Char))
  | [], met => some (.given met, none)
  | c :: cs, met =>
    if c = 'h' then some (.helpWanted, none)
    else
      match os.find? (·.short == some c) with
      | none => none
      | some o =>
        if o.takesValue then some (.given met, some (o, cs))
        else (note? o "" met).bind (shortOptions? os cs)

/-- What stands behind an option in the same word, with or without an equals sign. -/
def attached? : List Char → Option String
  | [] => none
  | '=' :: cs => some (.ofList cs)
  | cs => some (.ofList cs)

/-- Reads the words of a command one by one. -/
def parse? (os : List CommandOption) : List String → GivenOptions → Option ParsedOptions
  | [], met => some (.given met)
  | word :: words, met =>
    -- An option without a value in its own word takes the next one.
    let withNext (o : CommandOption) : Option ParsedOptions :=
      match words with
      | value :: rest =>
        if looksLikeOption value then none
        else (note? o value met).bind (parse? os rest)
      | [] => none
    match word.toList with
    | ['-', '-'] => if words.isEmpty then some (.given met) else none
    | '-' :: '-' :: cs =>
      let (name, value) := match cut? '=' cs with
        | some (name, value) => (String.ofList name, some (String.ofList value))
        | none => (.ofList cs, none)
      if name = "help" then if value.isNone then some .helpWanted else none
      else
        match os.find? (·.long == name), value with
        | none, _ => none
        | some o, some value =>
          if o.takesValue then (note? o value met).bind (parse? os words) else none
        | some o, none =>
          if o.takesValue then withNext o else (note? o "" met).bind (parse? os words)
    | '-' :: c :: cs =>
      match shortOptions? os (c :: cs) met with
      | none => none
      | some (.helpWanted, _) => some .helpWanted
      | some (.given met, none) => parse? os words met
      | some (.given _, some (o, rest)) =>
        match attached? rest with
        | some value => (note? o value met).bind (parse? os words)
        | none => withNext o
    | _ => none

end ParsedOptions

namespace Invocation

/-- The invocation of a command with its options. -/
def ofOptions (given : GivenOptions) : CommandName → Invocation
  | .generate =>
    generate ((given.lookup "config").getD "natbind.toml") ((given.lookup "output").getD ".")
      (given.lookup "dry-run").isSome
  | .check => check ((given.lookup "config").getD "natbind.toml") (given.lookup "json").isSome

/-- The invocation of a help command. -/
def helpOn? : List String → Option Invocation
  | [] => some (help none)
  | [word] =>
    if word = "help" then some helpOnHelp else (CommandName.ofWord? word).map fun c => help (some c)
  | _ => none

/-- The invocation of a command line. -/
def parse? : List String → Option Invocation
  | [] => none
  | word :: words =>
    match CommandName.ofWord? word with
    | some command =>
      (ParsedOptions.parse? command.options words []).map fun
        | .given given => ofOptions given command
        | .helpWanted => help (some command)
    | none =>
      if word = "help" then helpOn? words
      else
        match word.toList with
        | '-' :: 'h' :: _ => some (help none)
        | '-' :: 'V' :: _ => some version
        | _ =>
          if word = "--help" then some (help none)
          else if word = "--version" then some version
          else none

end Invocation
end NativeBindings
