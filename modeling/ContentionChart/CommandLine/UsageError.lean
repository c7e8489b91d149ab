import ContentionChart.CommandLine.Option

/-!
# Errors of usage

Why a command line is not carried out. A request for help or for the version is among the reasons:
it is answered instead.

## Main definitions

* `UsageError` — the reasons.
* `UsageError.message` — the diagnostic, or the help.
-/

namespace ContentionChart

/-- Why a command line is not carried out. -/
inductive UsageError where
  | missingCsv
  | unknownArgument (argument : String)
  | emptyValue (option : ValueOption)
  | notAChoice (option : ValueOption) (value : String)
  | malformedValue (option : ValueOption) (reason : String)
  | repeated (argument : String)
  /-- The value of an option that was accepted cannot be used after all. -/
  | unusableValue (option : ValueOption) (value : String)
  | help (text : String)
  | version (text : String)
  deriving DecidableEq

namespace UsageError

def firstLine (s : String) : String := String.ofList (s.toList.takeWhile (· ≠ '\n'))

def complaint : UsageError → String
  | missingCsv => "The following required arguments were not provided:"
  | unknownArgument argument =>
    "Found argument '" ++ argument ++ "' which wasn't expected, or isn't valid in this context"
  | emptyValue option =>
    "The argument '" ++ option.description ++ "' requires a value but none was supplied"
  | notAChoice option value =>
    "'" ++ value ++ "' isn't a valid value for '" ++ option.description ++ "'"
  | malformedValue option reason =>
    "Invalid value for '" ++ option.description ++ "': " ++ reason
  | repeated argument =>
    "The argument '" ++ argument ++
      "' was provided more than once, but cannot be used multiple times"
  | unusableValue option value =>
    "invalid value '" ++ value ++ "' for --" ++ option.longName
  | help _ | version _ => ""

/-- The diagnostic is a single line; a value with more lines is cut after the first. A request for
help has the help as its message, and one for the version has none. -/
def message : UsageError → String
  | help text => text
  | version _ => ""
  | fault => firstLine ("error: " ++ fault.complaint)

/-- What is printed in answer to a request. -/
def answer? : UsageError → Option String
  | help text => some text
  | version text => some text
  | _ => none

end UsageError

/-! ## Help and version -/

namespace Help

def programName : String := "lock_plot"

def versionNumber : String := "0.1.0"

/-- The name that the program goes by: the one that it was called by, if that is more than one word,
with dashes for the spaces. -/
def heading (calledAs : String) : String :=
  (if calledAs.toList.contains ' ' then calledAs.map fun c => if c = ' ' then '-' else c
    else programName) ++ " " ++ versionNumber

def lines (calledAs : String) : List String :=
  [heading calledAs,
   "plot threads vs ops/s from a lock benchmark csv",
   "",
   "USAGE:",
   "    " ++ calledAs ++ " [FLAGS] [OPTIONS] --csv-in <PATH>",
   "",
   "FLAGS:",
   "    -h, --help       Prints help information",
   "    -V, --version    Prints version information",
   "    -v, --verbose    log debug messages to stderr",
   "",
   "OPTIONS:",
   "        --csv-in <PATH>      csv file with lock,threads,ops_s[,task] columns",
   "        --figsize <WxH>      figure size in inches, WIDTHxHEIGHT [default: 8x5]",
   "        --max-x-ticks <N>    maximum number of thread count ticks, 0 hides them [default: 12]",
   "    -o, --output <PATH>      image file to save (png, or svg by extension); shows the chart if " ++
     "omitted",
   "        --yscale <yscale>    scale of the ops/s axis [default: log]  [possible values: " ++
     ", ".intercalate Scale.names ++ "]"]

def text (calledAs : String) : String := "\n".intercalate (lines calledAs)

end Help

end ContentionChart
