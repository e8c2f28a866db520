import NetWorth.Files.Path
/-!
# Files

The steps on a file system that the library takes.  Each may fail; only a missing file is told apart
from other failures.
-/

namespace NetWorth

/-- Why a step failed. -/
inductive FileError where
  | missing
  | refused
deriving DecidableEq

/-- The steps on a file system. -/
structure Files (m : Type → Type) where
  /-- Whether there is a file or directory at a path. -/
  exist : String → m Bool
  read : String → m (Except FileError String)
  /-- Makes a directory and those above it, where they do not exist. -/
  makeDirectories : String → m (Except FileError Unit)
  write : String → String → m (Except FileError Unit)
  /-- Moves a file to a second path in place of what is there. -/
  rename : String → String → m (Except FileError Unit)

/-- The same files with their steps run in another monad. -/
def Files.hoist {m n : Type → Type} (lift : {α : Type} → m α → n α) (files : Files m) :
    Files n where
  exist path := lift (files.exist path)
  read path := lift (files.read path)
  makeDirectories path := lift (files.makeDirectories path)
  write path text := lift (files.write path text)
  rename source target := lift (files.rename source target)

end NetWorth
