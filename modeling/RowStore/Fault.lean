/-! # What can go wrong

There are three kinds of fault. A rejection is an answer to the user and leaves
the session running. A stream failure ends the session. A breach is a use of
the store against its own rules: it is a value like the others, so that its
absence can be proved of a session rather than assumed.
-/

namespace RowStore

/-- Why a line is turned down. The session goes on. -/
inductive Rejection where
  /-- A known keyword with the wrong arguments. -/
  | malformed
  /-- A line that starts with no known keyword. -/
  | unknownKeyword (line : String)
  /-- A row number that is zero or less. -/
  | idNotPositive
  /-- A text that is longer than its column. -/
  | textTooLong
  /-- A row for which no slot is left. -/
  | tableFull
  /-- A line that starts with a dot and is no known command. -/
  | unknownCommand (line : String)
deriving DecidableEq

namespace Rejection

/-- The text that the user is shown. -/
def message : Rejection → String
  | malformed => "Syntax error. Could not parse statement."
  | unknownKeyword line => "Unrecognized keyword at start of '" ++ line ++ "'."
  | idNotPositive => "ID must be positive."
  | textTooLong => "String is too long."
  | tableFull => "Error: Table full."
  | unknownCommand line => "Unrecognized command '" ++ line ++ "'"

end Rejection

/-- A use of the store against its rules. -/
inductive Breach where
  /-- A buffer that has not the size of a row. -/
  | bufferSize (actual : Nat)
  /-- A text of `length` bytes written to a column of `width` bytes. -/
  | columnOverflow (width length : Nat)
  /-- A page beyond the last one. -/
  | noSuchPage (page : Nat)
  /-- A slot that does not lie inside its page. -/
  | outsidePage (slot : Nat)
  /-- A position beyond the end of its table. -/
  | pastEnd (position length : Nat)
deriving DecidableEq

namespace Breach

/-- The text for a log. -/
def message : Breach → String
  | bufferSize actual => "a row buffer has " ++ Nat.repr actual ++ " bytes"
  | columnOverflow width length =>
    "a text of " ++ Nat.repr length ++ " bytes in a column of " ++ Nat.repr width
  | noSuchPage page => "no page " ++ Nat.repr page
  | outsidePage slot => "no slot " ++ Nat.repr slot ++ " in a page"
  | pastEnd position length =>
    "position " ++ Nat.repr position ++ " in a table of " ++ Nat.repr length ++ " rows"

end Breach

/-- Everything that an operation can end with instead of a result. -/
inductive Fault where
  /-- A line was turned down. -/
  | rejected (reason : Rejection)
  /-- The input or the output failed. -/
  | stream (message : String)
  /-- A rule of the store was broken. -/
  | breached (breach : Breach)
deriving DecidableEq

namespace Fault

/-- The text that the user is shown. -/
def message : Fault → String
  | rejected reason => reason.message
  | stream message => "I/O error: " ++ message
  | breached breach => "Contract breach: " ++ breach.message

/-- A session survives a rejection and nothing else. -/
def isRecoverable : Fault → Bool
  | rejected _ => true
  | stream _ => false
  | breached _ => false

/-- What the user is told of a fault that a session survives. -/
def reason : (fault : Fault) → fault.isRecoverable = true → Rejection
  | rejected reason, _ => reason
  | stream _, h => absurd h Bool.false_ne_true
  | breached _, h => absurd h Bool.false_ne_true

end Fault

end RowStore
