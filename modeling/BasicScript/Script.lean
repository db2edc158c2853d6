import BasicScript.Evaluate
import BasicScript.Node.Outline

/-! Running a script file through all stages, with a log of what the stages made. -/

set_option autoImplicit false

namespace BasicScript

inductive LogLevel where
  | off
  | stages
  /-- Also the tokens, the syntax trees and the values. -/
  | all
  deriving DecidableEq, Inhabited

structure Report where
  log : List String
  fault : Option Interrupt
  deriving Inhabited

namespace Script

def logged (level : LogLevel) (stage : String) (made : List String) : List String :=
  match level with
  | .off => []
  | .stages => ["[" ++ stage ++ "]"]
  | .all => ("[" ++ stage ++ "]") :: made.map ("  " ++ ·)

def tokenLine (token : Token) : String := token.kind.name ++ " " ++ Text.quoted token.lexeme

def run (host : Host) (fuel : Nat) (level : LogLevel) (path : Path) (text : String)
    (session : Session) : Report × Session :=
  match Token.scan path.text text with
  | .error d => (⟨logged level "tokenize" [], some (.failed d)⟩, session)
  | .ok tokens =>
    let scanned := logged level "tokenize" (tokens.map tokenLine)
    match Node.ofTokens tokens with
    | .error d => (⟨scanned ++ logged level "parse" [], some (.failed d)⟩, session)
    | .ok nodes =>
      let parsed := scanned ++ logged level "parse" (nodes.map fun node => node.outline.render)
      match (Eval.runFile host fuel path nodes).run session with
      | .error stop session => (⟨parsed ++ logged level "interpret" [], some stop⟩, session)
      | .ok values session =>
        let values := values.map session.world.store.echo
        (⟨parsed ++ logged level "interpret" values, none⟩, session)

end Script

end BasicScript
