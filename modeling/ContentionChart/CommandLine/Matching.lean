import ContentionChart.CommandLine.UsageError
import ContentionChart.Files.Path

/-!
# Matching a command line

The words of a command line are matched against the options one after the other. A value may stand
in the word of its option, after an equals sign or directly after a short name, or be the next word,
unless that begins with a dash. After all words, every value that was given is checked, as text in
which bytes that are not UTF-8 are replaced.

## Main definitions

* `Matching.step` — the matching of one word.
* `Matches` — the values of a command line that is in order.
* `matchArguments` — all together.
-/

namespace ContentionChart

open Utf8 (Bytes)

/-- What the next word may be. -/
inductive Expectation where
  | anyWord
  | valueOf (option : ValueOption)
  /-- A value has just been taken, and the next word must be an option. -/
  | anOption
  deriving DecidableEq

/-- A command line that has been matched up to some word. -/
structure Matching where
  /-- The options in the order in which they were given, with or without a value. -/
  given : List ValueOption
  values : List (ValueOption × Bytes)
  verbose : Nat
  expectation : Expectation
  /-- Whether a word of two dashes has been seen, after which there are no options. -/
  optionsEnded : Bool
  deriving DecidableEq

namespace Matching

def initial : Matching := ⟨[], [], 0, .anyWord, false⟩

def dash : UInt8 := 0x2d

def equals : UInt8 := 0x3d

def unknown (word : Bytes) : UsageError := .unknownArgument (Utf8.decodeLossy word)

def takeValue (m : Matching) (option : ValueOption) (value : Bytes) : Matching :=
  { m with values := m.values ++ [(option, value)], expectation := .anOption }

/-- An option, with the value in its word if there is one. Equals signs in front of the value do not
belong to it. -/
def giveOption (m : Matching) (option : ValueOption) (value : Option Bytes) : Matching :=
  let m := { m with given := m.given ++ [option], expectation := .valueOf option }
  match value with
  | some value => m.takeValue option (value.dropWhile (· = equals))
  | none => m

def giveVerbose (m : Matching) : Matching :=
  { m with verbose := m.verbose + 1, expectation := .anyWord }

/-- The name before the first equals sign, and what follows that. -/
def splitEquals (bytes : Bytes) : Bytes × Option Bytes :=
  match bytes.span (· ≠ equals) with
  | (name, _ :: value) => (name, some value)
  | (name, []) => (name, none)

/-- A word that begins with two dashes. -/
def longWord (calledAs : String) (m : Matching) (word : Bytes) : Except UsageError Matching :=
  let (name, value) := splitEquals (word.dropWhile (· = dash))
  match ValueOption.all.find? fun o => Utf8.encode o.longName = name with
  | some option => .ok (m.giveOption option value)
  | none =>
    if name = Utf8.encode "verbose" then .ok m.giveVerbose
    else if name = Utf8.encode "help" then .error (.help (Help.text calledAs))
    else if name = Utf8.encode "version" then .error (.version (Help.heading calledAs))
    else .error (.unknownArgument ("--" ++ Utf8.decodeLossy name))

/-- The letters of a word that begins with one dash. What follows the letter of an option is its
value. -/
def shortWord (calledAs : String) (m : Matching) : Bytes → Except UsageError Matching
  | [] => .ok m
  | letter :: rest =>
    if letter = 'o'.toUInt8 then
      .ok (m.giveOption .output (if rest = [] then none else some rest))
    else if letter = 'v'.toUInt8 then shortWord calledAs m.giveVerbose rest
    else if letter = 'h'.toUInt8 then .error (.help (Help.text calledAs))
    else if letter = 'V'.toUInt8 then .error (.version (Help.heading calledAs))
    else .error (.unknownArgument
      ("-" ++ String.ofList ((Utf8.decodeLossy (letter :: rest)).toList.take 1)))

/-- Match one word. -/
def step (calledAs : String) (m : Matching) (word : Bytes) : Except UsageError Matching :=
  if m.optionsEnded then .error (unknown word)
  else if word = [dash, dash] then .ok { m with optionsEnded := true }
  else if [dash, dash].isPrefixOf word then longWord calledAs m word
  else if [dash].isPrefixOf word ∧ word ≠ [dash] then
    shortWord calledAs m (word.dropWhile (· = dash))
  else
    match m.expectation with
    | .valueOf option => .ok (m.takeValue option word)
    | _ => .error (unknown word)

/-- The values that were given to an option. -/
def valuesOf (m : Matching) (option : ValueOption) : List Bytes :=
  (m.values.filter fun v => v.1 = option).map Prod.snd

/-- The first value of an option, or else its standard one. -/
def value? (m : Matching) (option : ValueOption) : Option Bytes :=
  (m.valuesOf option).head? <|> option.standard?.map Utf8.encode

/-- What is wrong with a value of an option. -/
def valueError? (option : ValueOption) (value : Bytes) : Option UsageError :=
  let text := Utf8.decodeLossy value
  (option.problem? text).map fun
    | .notAChoice => .notAChoice option text
    | .malformed reason => .malformedValue option reason

/-- What is wrong with an option: it was given without a value and has no standard one, one of its
values is not good, or it was given more than once. -/
def optionError? (m : Matching) (option : ValueOption) : Option UsageError :=
  if option ∈ m.given ∧ m.value? option = none then some (.emptyValue option)
  else
    (m.valuesOf option).findSome? (valueError? option) <|>
      if 1 < m.given.count option then some (.repeated option.description) else none

/-- What is wrong with a command line as a whole. An option that is left without its value at the
end comes before the other faults, and a missing csv before that. -/
def error? (m : Matching) : Option UsageError :=
  if .csvIn ∉ m.given then some .missingCsv
  else
    (match m.expectation with
      | .valueOf option => if m.value? option = none then some (.emptyValue option) else none
      | _ => none) <|>
    ValueOption.all.findSome? m.optionError? <|>
    if 1 < m.verbose then some (.repeated "--verbose") else none

end Matching

/-- The values of a command line, standing ones included, as the bytes in which they were given. -/
structure Matches where
  csvIn : Bytes
  output : Option Bytes
  scale : Bytes
  threadTicks : Bytes
  figure : Bytes
  verbose : Bool
  deriving DecidableEq

/-- The values of a command line that has been matched to its end. -/
def Matching.finish (m : Matching) : Except UsageError Matches :=
  match m.error? with
  | some fault => .error fault
  | none =>
    .ok {
      csvIn := (m.value? .csvIn).getD []
      output := m.value? .output
      scale := (m.value? .scale).getD []
      threadTicks := (m.value? .threadTicks).getD []
      figure := (m.value? .figure).getD []
      verbose := decide (0 < m.verbose) }

/-- Match a command line, the program's own name first. -/
def matchArguments : List Bytes → Except UsageError Matches
  | [] => Matching.initial.finish
  | program :: words => do
    let called := (Path.fileName? ⟨program⟩).bind Utf8.decode?
    let m ← words.foldlM (Matching.step (called.getD Help.programName)) .initial
    m.finish

end ContentionChart
