import BasicScript.Fault

/-! The console: what has been written, and what has been typed and not yet read. A console may hold
only so many bytes; a write that does not fit adds nothing. Reading from a live console stops where
nothing has been typed yet; any other console is at its end there. -/

set_option autoImplicit false

namespace BasicScript

structure Console where
  written : String := ""
  limit : Option Nat := none
  pending : String := ""
  /-- More may be typed once the pending input has been read. -/
  live : Bool := false
  deriving DecidableEq, Inhabited

namespace Console

def fits (c : Console) (text : String) : Bool :=
  c.limit.all (c.written.utf8ByteSize + text.utf8ByteSize ≤ ·)

def append (c : Console) (text : String) : Console := { c with written := c.written ++ text }

def splitLine (cs : List Char) : List Char × List Char :=
  let line := cs.takeWhile (· != '\n')
  let rest := cs.drop line.length
  (line ++ rest.take 1, rest.drop 1)

/-- Read a line with its line break; an empty text at the end of the input, and nothing while a
line has yet to be typed. -/
def readLine? (c : Console) : Option (String × Console) :=
  if c.live ∧ c.pending.isEmpty then none
  else
    let (line, rest) := splitLine c.pending.toList
    some (String.ofList line, { c with pending := String.ofList rest })

end Console

def withoutBreaks (line : String) : String :=
  String.ofList (line.toList.reverse.dropWhile fun c => c == '\n' || c == '\r').reverse

end BasicScript
