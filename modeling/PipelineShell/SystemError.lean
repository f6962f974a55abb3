import PipelineShell.Text.Quoted

/-!
# Failures of the system

Why an operation on files or programs fails: the system names a reason with a number, or the
request itself cannot be put to the system.
-/

namespace PipelineShell

/-- The reasons that the system gives. -/
inductive SystemError
  | noEntry
  | inputOutput
  | listTooLong
  | badFormat
  | permissionDenied
  | alreadyExists
  | notDirectory
  | isDirectory
  | textBusy
  | fileTooLarge
  | noSpace
  | nameTooLong
  | tooManyLinks
  deriving DecidableEq, Repr

namespace SystemError

/-- The number of a reason. -/
def number : SystemError → Nat
  | .noEntry => 2
  | .inputOutput => 5
  | .listTooLong => 7
  | .badFormat => 8
  | .permissionDenied => 13
  | .alreadyExists => 17
  | .notDirectory => 20
  | .isDirectory => 21
  | .textBusy => 26
  | .fileTooLarge => 27
  | .noSpace => 28
  | .nameTooLong => 36
  | .tooManyLinks => 40

/-- The wording of a reason. -/
def reason : SystemError → String
  | .noEntry => "No such file or directory"
  | .inputOutput => "Input/output error"
  | .listTooLong => "Argument list too long"
  | .badFormat => "Exec format error"
  | .permissionDenied => "Permission denied"
  | .alreadyExists => "File exists"
  | .notDirectory => "Not a directory"
  | .isDirectory => "Is a directory"
  | .textBusy => "Text file busy"
  | .fileTooLarge => "File too large"
  | .noSpace => "No space left on device"
  | .nameTooLong => "File name too long"
  | .tooManyLinks => "Too many levels of symbolic links"

/-- The wording of a failure that concerns no path. -/
def message (e : SystemError) : String := "[Errno " ++ toString e.number ++ "] " ++ e.reason

/-- The wording of a failure that concerns the path `about`. -/
def describe (e : SystemError) (about : String) : String :=
  e.message ++ ": " ++ Text.quoted about

end SystemError

/-- Why a request is not put to the system. -/
inductive Refusal
  /-- A text for the system holds the character that ends texts there. -/
  | embeddedNul
  /-- The name of an environment variable holds an equals sign. -/
  | illegalName
  /-- More directories are missing one inside the other than are made for one path. -/
  | tooDeep
  deriving DecidableEq, Repr

/-- The wording of a refusal. -/
def Refusal.message : Refusal → String
  | .embeddedNul => "embedded null byte"
  | .illegalName => "illegal environment variable name"
  | .tooDeep => "maximum recursion depth exceeded"

/-- Why an operation on files fails. -/
inductive Failure
  | system (error : SystemError)
  | refused (refusal : Refusal)
  deriving DecidableEq, Repr

/-- Whether a text cannot be handed to the system. -/
def hasNul (text : String) : Bool := text.toList.contains '\x00'

end PipelineShell
