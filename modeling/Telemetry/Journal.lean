/-!
# The journal

An agent lives inside someone else's process and keeps silent there. What it has to say goes into a
journal, and only if the journal was opened for it.
-/

namespace Telemetry

/-- How important a line is. -/
inductive Severity where
  /-- something happened as it should -/
  | info
  /-- something failed -/
  | error
  deriving DecidableEq, Repr, Inhabited

/-- The text that stands for a severity. -/
def Severity.text : Severity → String
  | info => "info"
  | error => "error"

/-- A line of a journal. -/
structure JournalLine where
  severity : Severity
  text : String
  deriving DecidableEq, Repr, Inhabited

/-- A line with its severity in front. -/
def JournalLine.render (line : JournalLine) : String :=
  line.severity.text ++ ": " ++ line.text

/-- The lines written so far. -/
structure Journal where
  /-- whether lines are kept at all -/
  isOpen : Bool
  /-- the lines, oldest first -/
  lines : List JournalLine := []
  deriving Repr, Inhabited

namespace Journal

/-- Write a line. A journal that is not open stays empty. -/
def write (j : Journal) (severity : Severity) (text : String) : Journal :=
  if j.isOpen then { j with lines := j.lines ++ [⟨severity, text⟩] } else j

/-- Write down that something happened. -/
def info (j : Journal) (text : String) : Journal := j.write .info text

/-- Write down that something failed. -/
def error (j : Journal) (text : String) : Journal := j.write .error text

/-- Write a line whether the journal is open or not. -/
def announce (j : Journal) (text : String) : Journal :=
  { j with lines := j.lines ++ [⟨.info, text⟩] }

/-- Take out all lines. -/
def drain (j : Journal) : List JournalLine × Journal :=
  (j.lines, { j with lines := [] })

theorem write_of_not_isOpen (j : Journal) (severity : Severity) (text : String)
    (h : j.isOpen = false) : j.write severity text = j := by
  simp [write, h]

end Journal

end Telemetry
