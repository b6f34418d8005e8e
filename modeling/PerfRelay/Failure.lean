import PerfRelay.Json.Lexical

/-!
# Failures

A failure has a root cause and the contexts in which it was met.  What the operating system or the
reader of a format would say about a cause is not fixed here; a star stands for it in messages.
-/

namespace PerfRelay

/-- Why an operation on a file or a connection failed. -/
inductive IoKind where
  | notFound
  | permissionDenied
  | connectionRefused
  | connectionReset
  | connectionAborted
  | notConnected
  | brokenPipe
  | alreadyExists
  | wouldBlock
  | notADirectory
  | isADirectory
  | invalidInput
  | invalidData
  | invalidFilename
  | timedOut
  | writeZero
  | interrupted
  | unsupported
  | unexpectedEnd
  | outOfMemory
  | other
deriving DecidableEq, Repr

/-- The text that stands for what is not fixed. -/
def unspecified : String := "*"

/-- The root cause of a failure. -/
inductive Cause where
  /-- A cause with a text of its own. -/
  | text (message : String)
  /-- An operation on a file or a connection failed. -/
  | io (kind : IoKind)
  /-- A JSON text could not be read. -/
  | json (stop : Json.Stop)
deriving DecidableEq, Repr

/-- The text of a cause. -/
def Cause.message : Cause → String
  | .text message => message
  | .io _ => unspecified
  | .json _ => unspecified

/-- A cause and the contexts in which it was met, the outermost one first. -/
structure Failure where
  contexts : List String
  cause : Cause
deriving DecidableEq, Repr

namespace Failure

/-- The failure in one more context. -/
def within (context : String) (failure : Failure) : Failure :=
  { failure with contexts := context :: failure.contexts }

/-- The texts of the contexts and of the cause, colons between them. -/
def message (failure : Failure) : String :=
  ": ".intercalate (failure.contexts ++ [failure.cause.message])

end Failure

end PerfRelay
