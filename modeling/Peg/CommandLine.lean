/-
Peg/CommandLine.lean

The command line.

    <grammar> [--emit check|grammar|rust]
    <grammar> --input <file> [--entry <rule>] [--full]

The first form checks a grammar, prints it back or prints the parser generated
for it; the second form matches a file and prints the value.  Reading files is
left to the caller, who passes a function for it, so that what is printed and
how the command ends is a function of the arguments and the files.
-/
import Peg.Generated.OfGrammar
import Peg.Generated.Print
import Peg.Grammar.Parse
import Peg.Grammar.Format
import Peg.Value.Json

namespace Peg.CommandLine

/-! ### Arguments -/

/-- What is printed for a grammar. -/
inductive Emit where
  /-- How many rules and pasta blocks it has. -/
  | check
  /-- The grammar in its canonical layout. -/
  | grammar
  /-- The generated parser. -/
  | parser
  deriving DecidableEq, Repr

/-- The value of the option that chooses what is printed. -/
def Emit.ofName? : String → Option Emit
  | "check" => some .check
  | "grammar" => some .grammar
  | "rust" => some .parser
  | _ => none

/-- The arguments read so far; options are absent until they are given. -/
structure Arguments where
  grammar : Option String := none
  emit : Option Emit := none
  input : Option String := none
  entry : Option String := none
  full : Bool := false
  noTemplateWhitespace : Bool := false
  allowLeftRecursion : Bool := false
  deriving DecidableEq, Repr

/-- What a command line asks for. -/
inductive Request where
  | version
  | run (arguments : Arguments)
  deriving DecidableEq, Repr

namespace Arguments

/-- Set an option that takes a value; it may be given once. -/
def setOption? (arguments : Arguments) (name value : String) : Option Arguments :=
  match name with
  | "emit" =>
    match arguments.emit, Emit.ofName? value with
    | none, some emit => some { arguments with emit := some emit }
    | _, _ => none
  | "input" =>
    if arguments.input.isNone && !value.isEmpty then some { arguments with input := some value }
    else none
  | "entry" =>
    if arguments.entry.isNone then some { arguments with entry := some value } else none
  | _ => none

/-- Set an option that takes no value; it may be given once. -/
def setFlag? (arguments : Arguments) (name : String) : Option Arguments :=
  match name with
  | "full" => if arguments.full then none else some { arguments with full := true }
  | "no-template-whitespace" =>
    if arguments.noTemplateWhitespace then none
    else some { arguments with noTemplateWhitespace := true }
  | "allow-left-recursion" =>
    if arguments.allowLeftRecursion then none
    else some { arguments with allowLeftRecursion := true }
  | _ => none

/-- Set the argument without a name, the grammar; it may be given once. -/
def setGrammar? (arguments : Arguments) (path : String) : Option Arguments :=
  if arguments.grammar.isNone && !path.isEmpty then some { arguments with grammar := some path }
  else none

/-- Whether all that has to be given is: the grammar, and an input for what is about inputs. -/
def isComplete (arguments : Arguments) : Bool :=
  arguments.grammar.isSome
    && (arguments.input.isSome || (arguments.entry.isNone && !arguments.full))

end Arguments

/-- What an argument looks like. -/
inductive Shape where
  /-- Two dashes, after which no argument is an option. -/
  | endOfOptions
  /-- Two dashes and a name, with a value if there is an equals sign. -/
  | long (name : String) (value : Option String)
  /-- A dash and letters. -/
  | short (letters : List Char)
  | plain

/-- What an argument looks like; a dash alone is plain. -/
def shapeOf (argument : String) : Shape :=
  match argument.toList with
  | ['-', '-'] => .endOfOptions
  | '-' :: '-' :: rest =>
    let name := rest.takeWhile (· != '=')
    let value := match rest.dropWhile (· != '=') with
      | [] => none
      | _ :: value => some (String.ofList value)
    .long (String.ofList name) value
  | '-' :: c :: letters => .short (c :: letters)
  | _ => .plain

/-- Read the arguments after the end of options. -/
def readPlain (arguments : Arguments) : List String → Option Request
  | [] => if arguments.isComplete then some (.run arguments) else none
  | path :: rest => (arguments.setGrammar? path).bind (readPlain · rest)

/-- Read arguments; `none` if they are not as they have to be. -/
def readArguments (arguments : Arguments) : List String → Option Request
  | [] => if arguments.isComplete then some (.run arguments) else none
  | argument :: rest =>
    match shapeOf argument with
    | .endOfOptions => readPlain arguments rest
    | .plain => (arguments.setGrammar? argument).bind (readArguments · rest)
    | .short letters => if letters.head? == some 'V' then some .version else none
    | .long "version" none => some .version
    | .long name (some value) => (arguments.setOption? name value).bind (readArguments · rest)
    | .long name none =>
      if ["emit", "input", "entry"].contains name then
        match rest with
        | [] => none
        | value :: rest =>
          match shapeOf value with
          | .plain => (arguments.setOption? name value).bind (readArguments · rest)
          | _ => none
      else (arguments.setFlag? name).bind (readArguments · rest)

/-! ### Results -/

/-- How a command ends and what it prints. -/
structure Result where
  status : Nat
  output : String
  deriving DecidableEq, Repr

namespace Result

/-- The end of a command that did what it was asked for. -/
def success (output : String) : Result :=
  ⟨0, output⟩

/-- The end of a command with something wrong in the grammar or the input. -/
def refused (report : String) : Result :=
  ⟨1, report ++ "\n"⟩

/-- The end of a command that could not be started or could not read a file. -/
def unusable : Result :=
  ⟨2, ""⟩

end Result

/-! ### Commands -/

/-- Finish a command with a result or with the report of an error in the grammar. -/
def orReport {α : Type} (source path : String) (result : Except CompileError α)
    (next : α → Result) : Result :=
  match result with
  | .ok value => next value
  | .error error => .refused (error.report source.toList (some path))

/-- The options of the compilation that the arguments ask for. -/
def Arguments.compileOptions (arguments : Arguments) (options : CompileOptions) : CompileOptions :=
  { options with
    templateWhitespace := !arguments.noTemplateWhitespace
    rejectLeftRecursion := !arguments.allowLeftRecursion }

/-- Match a file and print the value. -/
def matchInput (arguments : Arguments) (path source : String) (input? : Option String) : Result :=
  let compiled := Parser.compile source (some path) (arguments.compileOptions {})
  orReport source path compiled fun parser =>
    match input? with
    | none => .unusable
    | some subject =>
      match parser.parse subject arguments.entry arguments.full with
      | .error error => .refused (parser.report subject error)
      | .ok found => .success (Json.indented 0 (Json.ofValue found.value) ++ "\n")

/-- Print what is asked for about a grammar. -/
def describeGrammar (arguments : Arguments) (path source : String) : Result :=
  let options := arguments.compileOptions .forCodegen
  orReport source path (Grammar.parse source) fun grammar =>
    match arguments.emit.getD .parser with
    | .check =>
      orReport source path (grammar.compile options) fun program =>
        .success (path ++ ": " ++ toString program.rules.length ++ " rules, "
          ++ toString grammar.pastas.length ++ " pasta blocks\n")
    | .grammar =>
      orReport source path (grammar.compile options) fun _ => .success grammar.format
    | .parser =>
      orReport source path (Generated.ParserCode.ofGrammar grammar options) fun parser =>
        .success parser.print

/-- Run a command line, with a function that reads files. -/
def run (read : String → Option String) (arguments : List String) : Result :=
  match readArguments {} arguments with
  | none => .unusable
  | some .version => .success "pegc 0.1.0\n"
  | some (.run arguments) =>
    let path := arguments.grammar.getD ""
    match read path with
    | none => .unusable
    | some source =>
      match arguments.input with
      | some input => matchInput arguments path source (read input)
      | none => describeGrammar arguments path source

/-! ### Files -/

/-- Files by name. -/
structure Directory where
  files : List (String × String)

/-- The path without steps that stay in the directory. -/
def plainPath (path : String) : String :=
  String.ofList (Text.joinWith ['/']
    ((Text.splitOn '/' path.toList).filter fun step => step != ['.']))

/-- The content of the file at a path. -/
def Directory.read (directory : Directory) (path : String) : Option String :=
  List.lookup (plainPath path) directory.files

end Peg.CommandLine
