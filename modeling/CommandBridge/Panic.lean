/-!
# Panics

A machine is foreign code, and any of its operations may panic instead of answering. A panic
carries a payload that is usually, but not always, a text.
-/

namespace CommandBridge

/-- The payload of a panic. -/
inductive Panic
  /-- The panic came with a message. -/
  | text (message : String)
  /-- The payload is something other than a text. -/
  | silent
  deriving DecidableEq, Repr

namespace Panic

/-- The message of a panic as it appears in reports. -/
def report : Panic → String
  | .text message => message
  | .silent => "non-string panic payload"

/-- The message of a panic, if it has one. -/
def message? : Panic → Option String
  | .text message => some message
  | .silent => none

end Panic

end CommandBridge
