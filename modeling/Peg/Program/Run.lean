/-
Peg/Program/Run.lean

Running a program.

`Program.matcher` is the meaning of a matcher.  It is given fuel, which every
step into a rule, a group or a function uses up, and every case is one
combinator applied to the same function with less fuel.  More fuel never
changes an answer, so the fuel is not part of the meaning; `execute` computes
an amount from the text and the program.

A scope is what the matchers of a sequence can refer to: the literal the
enclosing template was instantiated with, and the captures of the earlier
items.  Groups have captures of their own and share the literal; a rule
starts with neither.
-/
import Peg.Program.Basic
import Peg.Primitive
import Peg.Combinator

namespace Peg

/-! ### Matching -/

/-- What the matchers of a sequence can refer to. -/
structure Scope where
  param : Option String
  captures : List Capture

/-- A regular expression at an offset. -/
def Primitive.regex (expression : Regex) (description : String) (input : List Char) (start : Nat) :
    Outcome String :=
  match Text.dropBytes? input start with
  | none => .failure ⟨description, start⟩
  | some rest =>
    match expression.matchLength? rest with
    | none => .failure ⟨description, start⟩
    | some length =>
      .success (String.ofList ((Text.takeBytes? rest length).getD [])) (start + length)

/-- The text that an item of the sequence has matched. -/
def Scope.textOf (scope : Scope) (index : Nat) : String :=
  ((scope.captures[index]?).map (·.value.text)).getD ""

namespace Program

/-- A matching for each scope and matcher. -/
abbrev Step := Scope → Matcher → Matching Value

/-- The items of a sequence, each seeing the captures of the ones before it. -/
def matchItems (step : Step) (items : List Matcher) (param : Option String) :
    Matching (List Capture) :=
  Combinator.sequence
    (items.map fun item captures input start =>
      Run.andThen (step ⟨param, captures⟩ item input start) fun value stop =>
        .done (.success ⟨value, ⟨start, stop⟩⟩ stop))
    []

/-- An alternative, with the value its mapper gives or the tuple of its items. -/
def matchAlternative (step : Step) (alternative : CompiledAlternative) (param : Option String) :
    Matching Value := fun input start =>
  Run.andThen (matchItems step alternative.items param input start) fun captures stop =>
    let value := match alternative.mapper with
      | some mapper => mapper.evaluate captures input ⟨start, stop⟩
      | none => .ofItems (captures.map (·.value))
    .done (.success value stop)

/-- How a rule ends once its alternatives have: templates skip blanks. -/
def finishRule (rule : CompiledRule) (input : List Char) :
    Outcome Value → Outcome Value
  | .success value stop =>
    .success value (if rule.skipsBlank then Primitive.skipBlank input stop else stop)
  | outcome => outcome

/-- The event of leaving a rule, if it is left at all. -/
def leaving (id : Nat) : Outcome Value → List Event
  | .success _ stop => [.matched id stop]
  | .failure failure => [.failed id failure]
  | .fault _ => []

/-- A rule, instantiated with a literal if it is a template. -/
def matchRule (program : Program) (step : Step) (id : Nat) (param : Option String) :
    Matching Value := fun input start =>
  match program.rules[id]? with
  | none => .done (.fault (.missingRule id))
  | some rule =>
    match Combinator.choice
        (rule.alternatives.map fun alternative => matchAlternative step alternative param)
        input start with
    | none => none
    | some (events, outcome) =>
      let outcome := finishRule rule input outcome
      some (.entered id param input start :: events ++ leaving id outcome, outcome)

/-- The values of a group: those of its important items, if it has any. -/
def groupValue (important : List Nat) (captures : List Capture) : Value :=
  .ofItems (project (captures.map (·.value)) important)

/-- The meaning of a matcher. -/
def matcher (program : Program) : (fuel : Nat) → Step
  | 0, _, _, _, _ => none
  | fuel + 1, scope, m, input, start =>
    let step := matcher program fuel
    let text := fun (outcome : Outcome String) => Run.primitive (outcome.map Value.str)
    match m with
    | .literal string => text (Primitive.literal string input start)
    | .regex expression description => text (Primitive.regex expression description input start)
    | .any => text (Primitive.anyChar input start)
    | .param => text (Primitive.literal (scope.param.getD "") input start)
    | .variable index => text (Primitive.literal (scope.textOf index) input start)
    | .rule id => program.matchRule step id none input start
    | .template id argument => program.matchRule step id (some argument) input start
    | .negative inner => (Combinator.negative (step scope inner) input start).mapValue .str
    | .look inner => Combinator.look (step scope inner) input start
    | .attempt inner => Combinator.attempt (step scope inner) input start
    | .backtrack inner => Combinator.backtrack (step scope inner) input start
    | .external _ (some transformer) inner => transformer (step scope inner) input start
    | .external name none _ => .done (.failure ⟨"<" ++ name ++ ">", start⟩)
    | .group items important =>
      (matchItems step items scope.param input start).mapValue (groupValue important)
    | .repeated inner .optional =>
      (Combinator.optional (step scope inner) input start).mapValue Value.ofOption
    | .repeated inner .any =>
      (Combinator.many fuel (step scope inner) input start).mapValue .list
    | .repeated inner .oneOrMore =>
      (Combinator.many1 fuel (step scope inner) input start).mapValue .list

/-! ### Execution -/

/-- Fuel for a run on a text. -/
def fuel (program : Program) (input : List Char) : Nat :=
  let states := (Text.size input + 2) * (program.rules.length + 2) * (program.size + 2)
  states * states

/-- A rule at an offset; a template is instantiated with the empty literal. -/
def runRule (program : Program) (id : Nat) : Matching Value := fun input start =>
  program.matchRule (matcher program (program.fuel input)) id none input start

/-- A successful match. -/
structure Match where
  value : Value
  stop : Nat

/-- Why a subject has no match. -/
inductive RuntimeError where
  | failed (failure : Failure)
  | unknownEntry (name : String)
  | missingEntry
  | fault (fault : Fault)
  /-- The fuel was used up. -/
  | unfinished

/-- The number of the rule to start with. -/
def startRule (program : Program) : Option String → Except RuntimeError Nat
  | some name =>
    match program.ruleId? name with
    | some id => .ok id
    | none => .error (.unknownEntry name)
  | none =>
    match program.entry? with
    | some id => .ok id
    | none => .error .missingEntry

/-- The result of a run from the beginning of a subject, all of which has to be read if asked. -/
def result (subject : List Char) (full : Bool) : Run Value → Except RuntimeError Match
  | none => .error .unfinished
  | some (_, .success value stop) =>
    if full && stop < Text.size subject then .error (.failed ⟨"<eof>", stop⟩)
    else .ok ⟨value, stop⟩
  | some (_, .failure failure) => .error (.failed failure)
  | some (_, .fault fault) => .error (.fault fault)

/-- Match a subject from its beginning, along with the events on the way. -/
def executeWithEvents (program : Program) (subject : List Char) (entry : Option String)
    (full : Bool) : List Event × Except RuntimeError Match :=
  match program.startRule entry with
  | .error error => ([], .error error)
  | .ok id =>
    let run := program.runRule id subject 0
    ((run.map (·.1)).getD [], result subject full run)

/-- Match a subject from its beginning. -/
def execute (program : Program) (subject : List Char) (entry : Option String) (full : Bool) :
    Except RuntimeError Match :=
  (program.executeWithEvents subject entry full).2

end Program

/-! ### Reports -/

namespace Program.RuntimeError

/-- The error as a sentence. -/
def message : RuntimeError → String
  | .failed failure => failure.message
  | .unknownEntry name => "No simple rule named '" ++ name ++ "'"
  | .missingEntry => "The grammar has no simple rule to start from"
  | .fault (.missingRule id) => "There is no rule with number " ++ toString id
  | .fault (.beforeBeginning start length) =>
    "A backward match of length " ++ toString length ++ " starts at " ++ toString start
  | .unfinished => "The match was cut short"

/-- The error shown in the subject, if it has a place there. -/
def report (error : RuntimeError) (subject : List Char) (name : Option String) : String :=
  match error with
  | .failed failure => failure.report subject name
  | error => error.message

end Program.RuntimeError

end Peg
