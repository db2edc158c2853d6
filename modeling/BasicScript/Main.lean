import BasicScript.CommandLine

/-! The program: it takes a picture of the source files around, hands it to the interpreter together
with the arguments, and shows what comes back. When the interpreter waits for input, a line is read
and the run is repeated with it; what has already been shown is not shown again. -/

set_option autoImplicit false

namespace BasicScript.Program

def steps (path : String) : List String := (Path.mk path).split.filter Path.isStep

def content (path : String) : IO Content := do
  let bytes ← IO.FS.readBinFile path
  return ((String.fromUTF8? bytes).map Content.text).getD .binary

/-- What lies in and below a directory: its directories, and its files with the extension. -/
def gather (extension : String) : Nat → String → IO (List (List String × Content))
  | 0, _ => return []
  | depth + 1, path => do
    let real ← IO.FS.realPath path
    let mut found := [(steps real.toString, Content.directory)]
    for entry in ← real.readDir do
      if ← entry.path.isDir then
        found := found ++ (← gather extension depth entry.path.toString)
      else if entry.path.extension = some extension then
        found := (steps entry.path.toString, ← content entry.path.toString) :: found
    return found

def orNone {α : Type} (action : IO (List α)) : IO (List α) :=
  try action catch _ => return []

def gatherDepth : Nat := 12

/-- The files that a request can reach: around the working directory, the root and the script. -/
def picture (config : Config) (file : Option String) : IO FileTree := do
  let here ← IO.currentDir
  let around (path : String) := orNone (gather config.extension gatherDepth path)
  let script ← match file with
    | none => pure []
    | some name => do
      let folder := (((Path.mk name).parent?).map Path.text).getD ""
      let beside ← around (if folder.isEmpty then "." else folder)
      let itself ← orNone do
        let real ← IO.FS.realPath name
        if ← real.isDir then return [(steps real.toString, .directory)]
        return [(steps real.toString, ← content name)]
      pure (itself ++ beside)
  let below ← around config.root.text
  let nearby ← around here.toString
  return ⟨steps here.toString, script ++ below ++ nearby⟩

def request : CommandLine → Request
  | .run request => request
  | _ => {}

def faultText : Interrupt → String
  | .failed d => d.render
  | _ => "The program did not come to an end"

def secondsText (milliseconds : Nat) : String :=
  let places := toString (milliseconds % 1000)
  let padding := String.ofList (Layout.zeros (3 - places.length))
  toString (milliseconds / 1000) ++ "." ++ padding ++ places

/-- Run, show what is new behind the first `shown` characters, and go on while input is wanted. -/
partial def converse (run : Session → CommandLine.Outcome) (console : Console) (shown : Nat) :
    IO CommandLine.Outcome := do
  let outcome := run { world := { console } }
  let written := outcome.session.world.console.written
  let output ← IO.getStdout
  output.putStr (written.drop shown).toString
  output.flush
  if outcome.faults.any Interrupt.isPending then
    let line ← (← IO.getStdin).getLine
    converse run
      { console with pending := console.pending ++ line, live := !line.isEmpty } written.length
  else return outcome

end BasicScript.Program

open BasicScript Program in
def main (args : List String) : IO UInt32 := do
  let started ← IO.monoMsNow
  let here ← IO.currentDir
  let config : Config := { root := ⟨here.toString⟩ }
  let asked := request (CommandLine.parse args)
  let files ← picture (CommandLine.configure asked config) asked.file
  let host : Host := { config, files }
  let outcome ← converse (CommandLine.execute host ampleFuel args) { live := true } 0
  for line in outcome.log do IO.eprintln line
  for fault in outcome.faults do IO.eprintln (faultText fault)
  if outcome.timed then
    let elapsed := (← IO.monoMsNow) - started
    IO.eprintln ("Finished in " ++ secondsText elapsed ++ "s")
  return outcome.status.toUInt32
