import SchemaCompiler.Command.Arguments
import SchemaCompiler.Command.Files
import SchemaCompiler.Compile
import SchemaCompiler.Options.Read
import SchemaCompiler.Text.Visible

/-!
# Notices

What a run tells the user besides its output: log lines, the question whether a file may be
overwritten, and the error that ended the run. Log lines are shown or not by their level; the other
notices are always shown.
-/

namespace SchemaCompiler.Command

/-- Why a run failed: a file could not be read or written, the file with the compile options holds
none, or the schema could not be compiled. -/
inductive Failure where
  | file (error : FileError)
  | options (error : OptionsError)
  | compile (error : CompileError)
deriving DecidableEq, Repr

/-- A failure with the names and the values of its parts. -/
def Failure.details : Failure → String
  | file error => error.details
  | options error => error.details
  | compile error => error.details

/-- How important a log line is. -/
inductive Level where
  | debug
  | info
  | warning
deriving DecidableEq, Repr

/-- The name of a level in a log line, in five columns. -/
def Level.label : Level → String
  | debug => "DEBUG"
  | info => " INFO"
  | warning => " WARN"

/-- Whether log lines of a level are shown. -/
def Verbosity.shows : Verbosity → Level → Bool
  | .quiet, _ => false
  | .normal, level => decide (level ≠ .debug)
  | .verbose, _ => true

/-- Something that the user is told: a report of the compilation, that the header of `input` was
written to `output`, that `output` was not to be overwritten, the question whether it may be, or the
error that ended the run. -/
inductive Notice where
  | event (report : Event)
  | compiled (input output : String)
  | untouched (output : String)
  | question (output : String)
  | failure (cause : Failure)
deriving DecidableEq, Repr

/-- The level of the log line of an event. -/
def eventLevel : Event → Level
  | .tokenized _ | .parsed .. | .emitted .. => .debug
  | .redefined .. => .warning

/-- The log line of an event. -/
def eventText : Event → String
  | .tokenized count => "tokenized schema count=" ++ count.repr
  | .parsed name fields => "parsed message name=" ++ name ++ " elements=" ++ fields.repr
  | .redefined name line =>
    "message redefined; keeping the later definition name=" ++ name ++ " line=" ++ line.repr
  | .emitted package bytes => "emitted header package=" ++ package ++ " bytes=" ++ bytes.repr

/-- A log line with the time it was written at, if lines of its level are shown. No path can act on
the terminal through it. -/
def logLine (verbosity : Verbosity) (time : String) (level : Level) (text : String) : String :=
  if verbosity.shows level then
    time ++ " " ++ level.label ++ " " ++ Text.visible text ++ "\n"
  else ""

/-- A notice as the user sees it. -/
def Notice.render (verbosity : Verbosity) (time : String) : Notice → String
  | event report => logLine verbosity time (eventLevel report) (eventText report)
  | compiled input output =>
    logLine verbosity time .info ("Compiled " ++ input ++ " → " ++ output)
  | untouched output => logLine verbosity time .info ("Left " ++ output ++ " untouched")
  | question output => "File " ++ output ++ " already exists, overwrite it? [Y/n] "
  | failure cause => "Error: " ++ cause.details ++ "\n"

end SchemaCompiler.Command
