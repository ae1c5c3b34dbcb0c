import DenseBench.Run.Config
import DenseBench.Text.Character

/-!
# Log filters

A log level is a filter: directives with commas between them, and behind a slash a pattern for
messages, which is not looked at here. A directive names a level, a part of the program, or a part
and its level with an equals sign between them. Whatever is malformed is passed over with a warning.
-/

namespace DenseBench.Settings.LogFilter

open Text

def levels : List String :=
  ["off", "error", "warn", "info", "debug", "trace"]

def isLevel (cs : List Char) : Bool :=
  levels.contains (String.ofList (lowerAscii cs))

inductive Fault
  | malformed (part : String)
  | tooManySlashes (filter : String)
  deriving DecidableEq, Repr

def Fault.message : Fault → String
  | .malformed part => "invalid logging spec '" ++ part ++ "'"
  | .tooManySlashes filter => "invalid logging spec '" ++ filter ++ "' (too many '/'s)"

/-- What is wrong with a directive. A level that is left out behind its sign is no fault. -/
def directiveFault? (directive : List Char) : Option Fault :=
  match directive.splitOn '=' with
  | [_] => none
  | [_, level] =>
    let level := trim level
    if level = [] ∨ isLevel level then none else some (.malformed (String.ofList level))
  | _ => some (.malformed (String.ofList directive))

def faults (filter : String) : List Fault :=
  match filter.toList.splitOn '/' with
  | [directives] | [directives, _] =>
    (directives.splitOn ',').filterMap fun directive => directiveFault? (trim directive)
  | _ => [.tooManySlashes filter]

def warnings (filter : String) : List String :=
  (faults filter).map fun fault => "warning: " ++ fault.message ++ ", ignoring it"

/-- The variable that takes the place of the log level of the settings. -/
def overridingVariable : String := "ARRAYBENCH_LOG"

def chosen (environment : List (String × String)) (settings : Settings) : String :=
  (environment.lookup overridingVariable).getD settings.logLevel

end DenseBench.Settings.LogFilter
