import RowStore.Row
import RowStore.Text.Blank
import RowStore.Text.Numeral
import RowStore.Text.Quoted

/-! # Statements

A statement is what a line of input asks of the table. Everything about it that
does not depend on the table is checked when the line is parsed.
-/

namespace RowStore

open Text

/-- A parsed and checked line. -/
inductive Statement where
  /-- Lists every row. -/
  | select
  /-- Appends a row. -/
  | insert (row : Row)
deriving DecidableEq

namespace Statement

/-- The row number that a word states. It must be a numeral of the signed
64-bit range; one that is not positive has a rejection of its own, and one that
does not fit its column is refused like a word that is no numeral. -/
def rowNumber (word : String) : Except Rejection UInt32 :=
  match Numeral.integerWithin? (Nat.pow 2 63) (Nat.pow 2 63 - 1) word with
  | none => .error .malformed
  | some value =>
    if value ≤ 0 then .error .idNotPositive
    else if UInt32.size ≤ value.toNat then .error .malformed
    else .ok (UInt32.ofNat value.toNat)

/-- The arguments of an insertion are the number, the username and the email. -/
def parseInsert : List String → Except Rejection Statement
  | [number, username, email] =>
    match rowNumber number with
    | .error reason => .error reason
    | .ok id => (Row.ofFields id username email).map insert
  | _ => .error .malformed

/-- The first word of a line is a keyword and decides what may follow. -/
def parse (line : String) : Except Rejection Statement :=
  match Blank.words line with
  | [] => .error (.unknownKeyword line)
  | keyword :: arguments =>
    if keyword = "insert" then parseInsert arguments
    else if keyword = "select" then
      if arguments.isEmpty then .ok select else .error .malformed
    else .error (.unknownKeyword line)

/-- The form that a log shows. -/
def display : Statement → String
  | select => "Select"
  | insert row =>
    "Insert(Row \x7b id: " ++ Nat.repr row.id.toNat ++ ", username: " ++
      Quoted.encode row.username ++ ", email: " ++ Quoted.encode row.email ++ " \x7d)"

end Statement

end RowStore
