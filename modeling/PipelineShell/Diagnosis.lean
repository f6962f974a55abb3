import PipelineShell.Redirection

/-!
# Diagnoses

What the shell reports on its error stream, each as one line. `Diagnosis.message` is the one place
that words them.
-/

namespace PipelineShell

/-- A report of the shell. -/
inductive Diagnosis
  /-- A report in its own words. -/
  | remark (message : String) (command : Option String)
  /-- A redirection operator with nothing after it. -/
  | danglingOperator (operator : String) (command : Option String)
  /-- A name that is neither a builtin nor a program. -/
  | unknownCommand (command : String)
  /-- A redirection whose target cannot be opened or read. -/
  | badRedirection (command target reason : String)
  /-- A program that cannot be started. -/
  | badProgram (command path reason : String)
  deriving DecidableEq, Repr

namespace Diagnosis

/-- The report of an operator left at the end of a stage. -/
def ofDangling (d : Dangling) : Diagnosis := .danglingOperator d.operator d.command

/-- The wording of a report. -/
def message : Diagnosis → String
  | .remark message _ => message
  | .danglingOperator operator _ =>
    "syntax error near unexpected token `newline' after `" ++ operator ++ "'"
  | .unknownCommand command => command ++ ": command not found"
  | .badRedirection command target reason => command ++ ": " ++ target ++ ": " ++ reason
  | .badProgram command _ reason => command ++ ": " ++ reason

/-- The command that a report is about. -/
def command? : Diagnosis → Option String
  | .remark _ command => command
  | .danglingOperator _ command => command
  | .unknownCommand command => some command
  | .badRedirection command _ _ => some command
  | .badProgram command _ _ => some command

/-- A report as the line that is printed. -/
def line (d : Diagnosis) : String := d.message ++ "\n"

end Diagnosis

end PipelineShell
