import Telemetry.Text.Quoted
import Telemetry.Text.Search

/-!
# Profiles

A profile is a table of samples. Each sample is a stack of frames and one value for each column of
the table; a column is known by its kind, such as `inuse_space`.

Stacks are kept as they come, innermost frame first. `Sample.path` is the stack as a path of labels
from the outermost frame inwards, which is how samples hang in a call graph.
-/

namespace Telemetry

/-- One frame of a sampled stack. -/
structure Frame where
  function : String
  /-- the source file, if it is known -/
  file : Option String
  /-- the line in that file, if it is known -/
  line : Option UInt32
  deriving DecidableEq, Repr

/-- The text that names a frame: the function and where it is. An unknown file is a question mark.
-/
def Frame.label (f : Frame) : String :=
  let file := f.file.getD "?"
  match f.line with
  | some line => f.function ++ " (" ++ file ++ ":" ++ toString line.toNat ++ ")"
  | none => f.function ++ " (" ++ file ++ ")"

/-- A column of the values of samples. -/
structure SampleType where
  /-- what the column is known by -/
  kind : String
  unit : String
  deriving DecidableEq, Repr

/-- A sampled stack with its values. -/
structure Sample where
  /-- the frames, innermost first -/
  frames : List Frame
  /-- a value for each column -/
  values : List Int64
  deriving DecidableEq, Repr

/-- The labels of the frames, outermost first. -/
def Sample.path (s : Sample) : List String :=
  s.frames.reverse.map Frame.label

/-- A table of samples. -/
structure Profile where
  sampleTypes : List SampleType
  samples : List Sample
  deriving DecidableEq, Repr

/-- The index of the first column of a kind. -/
def Profile.column? (p : Profile) (kind : String) : Option Nat :=
  p.sampleTypes.findIdx? (·.kind == kind)

/-- Why there is no call graph. -/
inductive ProfileError where
  /-- the profile has no column of a kind -/
  | missingSampleType (kind : String)
  /-- a sample has too few values -/
  | malformedSample (index found expected : Nat)
  /-- the profile could not be taken -/
  | sourceFailed (reason : String)
  deriving DecidableEq, Repr

/-- The text of an error. -/
def ProfileError.message : ProfileError → String
  | missingSampleType kind => "Profile is missing sample type " ++ Text.quoted kind
  | malformedSample index found expected =>
    "Sample " ++ toString index ++ " has " ++ toString found ++ " values, expected at least "
      ++ toString expected
  | sourceFailed reason => "Profile source failed: " ++ reason

/-- Whether a frame belongs to the agent itself, by its label: its own functions start with the name
of the agent, and what it implements for others mentions that name in angle brackets. -/
def isAgentFrame (label : String) : Bool :=
  "stackpulse::".toList.isPrefixOf label.toList
    || Text.occursIn "<stackpulse::".toList label.toList

end Telemetry
