import BasicScript.Proofs.Node.Unbounded
import BasicScript.Proofs.Token.Line

/-! What goes wrong with a text. Scanning and parsing have faults of their own, and those name no
calls and no imports. -/

set_option autoImplicit false

namespace BasicScript

namespace Node

end Node

end BasicScript
