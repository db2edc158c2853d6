import BasicScript.FileTree
import BasicScript.Module.Native

/-! Where an import finds its module: in the folder of modules beside the script, in that of the
root directory, beside the script, in the root directory, and last among the native modules. -/

set_option autoImplicit false

namespace BasicScript

structure Config where
  root : Path
  /-- The folder for modules in the root directory and beside a script. -/
  modulesFolder : String := "modules"
  extension : String := "vlb"
  maxCallDepth : Nat := 256
  deriving DecidableEq, Inhabited

/-- All that stays the same while programs run. -/
structure Host where
  config : Config
  natives : Registry := Registry.standard
  files : FileTree
  deriving Inhabited

inductive ModuleSource where
  | file (path : Path)
  | native (module : NativeModule)
  deriving Inhabited

namespace Host

def candidates (host : Host) (scriptDirectory : Option Path) (name : String) : List Path :=
  let folder := host.config.modulesFolder
  let file := name ++ "." ++ host.config.extension
  let beside := scriptDirectory.toList
  beside.map (fun directory => (directory.join folder).join file) ++
    [(host.config.root.join folder).join file] ++
    beside.map (fun directory => directory.join file) ++
    [host.config.root.join file]

def resolve? (host : Host) (scriptDirectory : Option Path) (name : String) : Option ModuleSource :=
  match (host.candidates scriptDirectory name).find? host.files.isFile with
  | some path => some (.file path)
  | none => .native <$> host.natives.find? name

end Host

/-- The name that an import without an alias declares: what follows the last slash or backslash. -/
def defaultAlias (name : String) : String :=
  String.ofList (name.toList.reverse.takeWhile fun c => c != '/' && c != '\\').reverse

end BasicScript
