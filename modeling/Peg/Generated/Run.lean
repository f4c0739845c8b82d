/-
Peg/Generated/Run.lean

What generated parsers do.

The functions of a generated parser work on values of the host language.  A
matcher gives a text, an optional value, a vector or a tuple, as the type of
its code is, and only the function of a rule without a declared type makes a
general value of them.  A back-reference converts the value of a variable to
find out its text.

Code is run as it is written: a variable is looked up where the code says it
is declared, a function is called by its name, and a regular expression is
the one that is declared under its number.  Of host code only the text of the
match is known; what else a mapper says, and what functions of the host do, is
given along with the values of the host's own types (`HostCode`).

Fuel is used up in the same places as by programs (`Program.matcher`).
-/
import Peg.Generated.OfGrammar
import Peg.Program.Run

namespace Peg.Generated

open Host

/-! ### Values -/

/-- Values of the host language; those of its own types are a parameter. -/
inductive HostValue (ν : Type) where
  | text (string : String)
  | value (value : Value)
  | absent
  | present (value : HostValue ν)
  | vector (values : List (HostValue ν))
  | tuple (values : List (HostValue ν))
  | own (value : ν)

/-- What an item of a sequence has given, and where. -/
structure Local (ν : Type) where
  value : HostValue ν
  span : Span

/-- What a mapper can refer to. -/
structure Frame (ν : Type) where
  param : Option String
  locals : List (Local ν)
  input : List Char
  start : Nat
  stop : Nat

/-- The host code around a parser. -/
structure HostCode (ν : Type) where
  /-- The conversion of the host's own values. -/
  general : ν → Value
  /-- The value of an expression. -/
  evaluate : Tokens → Frame ν → HostValue ν
  /-- The functions that matchers are given to. -/
  transform : Identifier → Matching (HostValue ν) → Matching (HostValue ν)

variable {ν : Type}

namespace HostValue

mutual

/-- The conversion to a general value. -/
def toValue (host : HostCode ν) : HostValue ν → Value
  | .text string => .str string
  | .value general => general
  | .absent => .absent
  | .present inner => toValue host inner
  | .vector items => .list (toValues host items)
  | .tuple items => .tuple (toValues host items)
  | .own native => host.general native

/-- The conversion of several values. -/
def toValues (host : HostCode ν) : List (HostValue ν) → List Value
  | [] => []
  | first :: others => toValue host first :: toValues host others

end

/-- Values in a row: a tuple, unless there is just one. -/
def ofItems : List (HostValue ν) → HostValue ν
  | [item] => item
  | items => .tuple items

/-- A value that may be there. -/
def ofOption : Option (HostValue ν) → HostValue ν
  | some inner => .present inner
  | none => .absent

end HostValue

/-! ### Sequences -/

/-- The values of the variables that can be seen. -/
abbrev Environment (ν : Type) := Place → Option (HostValue ν)

/-- The variables of a sequence at some depth, which hide those of other sequences there. -/
def Environment.bind (outer : Environment ν) (depth : Nat) (locals : List (Local ν)) :
    Environment ν := fun place =>
  if place.depth = depth then (locals[place.index]?).map (·.value) else outer place

/-- A matching for each matcher, the variables it sees and the parameter. -/
abbrev CodeStep (ν : Type) :=
  Environment ν → Option String → MatcherCode → Matching (HostValue ν)

/-- The statements for the items of a sequence, each seeing the variables of the ones before. -/
def runItems (step : CodeStep ν) (depth : Nat) (items : List MatcherCode) (outer : Environment ν)
    (param : Option String) : Matching (List (Local ν)) :=
  Combinator.sequence
    (items.map fun item locals input start =>
      Run.andThen (step (outer.bind depth locals) param item input start) fun value stop =>
        .done (.success ⟨value, ⟨start, stop⟩⟩ stop))
    []

/-! ### Functions -/

/-- The expression for the text of an alternative. -/
def isMatchedText (expression : Tokens) : Bool :=
  (expression? matchedTextCall).any (sameTokens expression)

/-- The value of an expression. -/
def HostCode.evaluateIn (host : HostCode ν) (expression : Tokens) (frame : Frame ν) : HostValue ν :=
  if isMatchedText expression then
    .text (Primitive.textBetween frame.input frame.start frame.stop)
  else host.evaluate expression frame

/-- The result of an alternative; without a declared type it is a general value. -/
def AlternativeCode.resultIn (alternative : AlternativeCode) (host : HostCode ν)
    (isUntyped : Bool) (frame : Frame ν) : HostValue ν :=
  match alternative.result, isUntyped with
  | some expression, true => .value ((host.evaluateIn expression frame).toValue host)
  | some expression, false => host.evaluateIn expression frame
  | none, true => .value (.ofItems (frame.locals.map fun entry => entry.value.toValue host))
  | none, false => .ofItems (frame.locals.map (·.value))

/-- The function of an alternative. -/
def AlternativeCode.run (alternative : AlternativeCode) (host : HostCode ν) (step : CodeStep ν)
    (isUntyped : Bool) (param : Option String) : Matching (HostValue ν) := fun input start =>
  Run.andThen (runItems step 0 alternative.items (fun _ => none) param input start)
    fun locals stop =>
      .done (.success (alternative.resultIn host isUntyped ⟨param, locals, input, start, stop⟩)
        stop)

/-- The function of a rule. -/
def RuleCode.run (rule : RuleCode) (host : HostCode ν) (step : CodeStep ν)
    (templateWhitespace : Bool) (param : Option String) : Matching (HostValue ν) :=
  fun input start =>
    let run := Combinator.choice
      (rule.alternatives.map fun alternative => alternative.run host step rule.isUntyped param)
      input start
    if rule.isTemplate && templateWhitespace then
      run.andThen fun value stop => .done (.success value (Primitive.skipBlank input stop))
    else run

namespace ParserCode

/-- The function with a name; code that calls one that is not there is no code. -/
def callRule (parser : ParserCode) (host : HostCode ν) (step : CodeStep ν) (function : Identifier)
    (param : Option String) : Matching (HostValue ν) := fun input start =>
  match parser.rules.find? (·.function == function) with
  | some rule => rule.run host step parser.templateWhitespace param input start
  | none => .done (.fault (.missingRule parser.rules.length))

/-- A declared regular expression.  That it is well formed has been checked before there is any
code. -/
def regex (parser : ParserCode) (number : Nat) : Regex :=
  ((parser.regexes[number]?).bind fun code =>
    Regex.pattern? code.source code.flags parser.dialect).getD .never

/-- The meaning of a matcher. -/
def matcher (parser : ParserCode) (host : HostCode ν) : (fuel : Nat) → CodeStep ν
  | 0, _, _, _, _, _ => none
  | fuel + 1, environment, param, code, input, start =>
    let step := matcher parser host fuel
    let body := step environment param
    let text := fun (outcome : Outcome String) => Run.primitive (outcome.map HostValue.text)
    match code with
    | .literal string => text (Primitive.literal string input start)
    | .regex number description =>
      text (Primitive.regex (parser.regex number) description input start)
    | .any => text (Primitive.anyChar input start)
    | .param => text (Primitive.literal (param.getD "") input start)
    | .variable place =>
      let string := ((environment place).map fun value => (value.toValue host).text).getD ""
      text (Primitive.literal string input start)
    | .rule function => parser.callRule host step function none input start
    | .template function argument =>
      parser.callRule host step function (some argument) input start
    | .negative inner => (Combinator.negative (body inner) input start).mapValue .text
    | .look inner => Combinator.look (body inner) input start
    | .attempt inner => Combinator.attempt (body inner) input start
    | .backtrack inner => Combinator.backtrack (body inner) input start
    | .external function inner => host.transform function (body inner) input start
    | .group depth items kept =>
      (runItems step depth items environment param input start).mapValue fun locals =>
        .ofItems (kept.filterMap fun index => (locals[index]?).map (·.value))
    | .repeated .optional inner =>
      (Combinator.optional (body inner) input start).mapValue .ofOption
    | .repeated .any inner =>
      (Combinator.many fuel (body inner) input start).mapValue .vector
    | .repeated .oneOrMore inner =>
      (Combinator.many1 fuel (body inner) input start).mapValue .vector

/-- The function of a rule with so much fuel; that of a template takes a text. -/
abbrev call (parser : ParserCode) (host : HostCode ν) (fuel : Nat) (function : Identifier)
    (param : Option String) : Matching (HostValue ν) :=
  parser.callRule host (parser.matcher host fuel) function param

/-- The function that matches the first rule at the beginning of a text, if there is a rule. -/
def parse (parser : ParserCode) (host : HostCode ν) (fuel : Nat) (input : List Char) :
    Run (HostValue ν) :=
  match parser.entry? with
  | some rule => parser.call host fuel rule.function none input 0
  | none => none

end ParserCode

end Peg.Generated
