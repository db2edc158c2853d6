import BasicScript.Evaluate
import BasicScript.Text.Blank

/-! The interactive shell. Each line runs in the same context, so declarations persist, and a faulty
line leaves the session as the fault found it. -/

set_option autoImplicit false

namespace BasicScript

/-- Write without regard to any limit. -/
def Session.print (s : Session) (text : String) : Session :=
  { s with world := { s.world with console := s.world.console.append text } }

def Session.readLine? (s : Session) : Option (String × Session) :=
  s.world.console.readLine?.map fun (line, console) =>
    (line, { s with world := { s.world with console } })

namespace Shell

def sourceName : String := "<stdin>"

def version : String := "0.1.0"

def banner : String := "vlbasic " ++ version ++ "\nType 'exit' or press Ctrl+D to quit\n\n"

def prompt : String := "vlb > "

def runLine (host : Host) (fuel : Nat) (context : Context) (line : String) (session : Session) :
    Except Interrupt (List String) × Session :=
  let body : Eval (List Value) := do
    let nodes ← Eval.parse sourceName line
    Eval.interpret host fuel nodes context
  match body.run session with
  | .ok values session =>
    (.ok ((values.filter (· != .null)).map session.world.store.echo), session)
  | .error stop session => (.error stop, session)

structure Turn where
  goesOn : Bool
  fault : Option Interrupt
  deriving Inhabited

/-- Act on a line that has been typed. Blank lines do nothing, `exit` and `quit` end the shell. -/
def turn (host : Host) (fuel : Nat) (context : Context) (line : String) (session : Session) :
    Turn × Session :=
  let line := Text.trimmed line
  if line.isEmpty then (⟨true, none⟩, session)
  else if line = "exit" ∨ line = "quit" then (⟨false, none⟩, session.print "Goodbye!\n")
  else
    match runLine host fuel context line session with
    | (.ok texts, session) =>
      (⟨true, none⟩, session.print (String.join (texts.map (· ++ "\n"))))
    | (.error stop, session) => (⟨true, some stop⟩, session)

def waiting : Interrupt := .failed ⟨.inputPending, .synthetic sourceName, [], []⟩

/-- Read and run lines up to the end of the input, at most `rounds` of them. The faults of the lines
are in order; input that has yet to be typed comes last. -/
def loop (host : Host) (fuel : Nat) (context : Context) :
    Nat → Session → List Interrupt → List Interrupt × Session
  | 0, session, faults => (faults.reverse, session)
  | rounds + 1, session, faults =>
    let session := session.print prompt
    match session.readLine? with
    | none => ((waiting :: faults).reverse, session)
    | some (line, session) =>
      if line.isEmpty then (faults.reverse, session.print "\n")
      else
        let (turn, session) := turn host fuel context line session
        let faults := turn.fault.toList ++ faults
        if turn.goesOn && !turn.fault.any Interrupt.isPending then
          loop host fuel context rounds session faults
        else (faults.reverse, session)

/-- Start the shell and run it until it ends. A line takes at least one character of the input. -/
def start (host : Host) (fuel : Nat) (session : Session) : List Interrupt × Session :=
  match (Eval.newContext sourceName).run (session.print banner) with
  | .error stop session => ([stop], session)
  | .ok context session =>
    loop host fuel context (session.world.console.pending.length + 1) session []

end Shell

end BasicScript
