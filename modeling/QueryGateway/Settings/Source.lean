import QueryGateway.Files.Tree
import QueryGateway.Settings.Reader

/-!
# Where settings come from

Settings are read from a file. Without the file the gateway runs on what is given at first; a file
that cannot be read is an error. The environment may put the data sources elsewhere, which is not
validated again.
-/

namespace QueryGateway.Settings

/-- **Loading settings** from the file that a path leads to. A file that is not there leaves the
defaults; one that is there and cannot be read is an error. -/
def load (files : FileTree) (path : FilePath) : Except ConfigError Settings :=
  match files.readText path with
  | .ok text => parse text
  | .error .notFound => .ok {}
  | .error e => .error (.load (.unreadable e))

/-- Settings with the data sources where the environment says, unless that is blank. -/
def override (s : Settings) (dataSourcesPath : Option String) : Settings :=
  match dataSourcesPath with
  | some path => if Text.isAllBlank path then s else { s with dataSourcesPath := path }
  | none => s

/-- **Loading settings** where the environment has a say. -/
def loadWith (files : FileTree) (path : FilePath) (dataSourcesPath : Option String) :
    Except ConfigError Settings := do
  return (← load files path).override dataSourcesPath

end QueryGateway.Settings
