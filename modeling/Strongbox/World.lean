import Strongbox.Files.Canonical
import Strongbox.Files.Directories
import Strongbox.Task

/-!
Operations that may also use the file system. Those that do not are lifted unchanged, so they
leave every file as it is.
-/

namespace Strongbox

structure World where
  ambient : Ambient
  files : FileTree

namespace World

def record (w : World) (level : Level) (message : String) : World :=
  { w with ambient := w.ambient.record level message }

end World

abbrev Action := ExceptT Abort (StateM World)

/-- A task as an action on the ambient part of the world. -/
def Task.inWorld {α : Type} (t : Task α) : Action α :=
  ExceptT.mk fun w =>
    let (result, ambient) := StateT.run (ExceptT.run t) w.ambient
    (result, { w with ambient })

end Strongbox
