import VerifierTrace.Config.Reader
import VerifierTrace.Event
import VerifierTrace.Files.Tree
import VerifierTrace.Text.Lines
import VerifierTrace.Text.Utf8

/-!
# VerifierTrace.Config.File

Configurations in files: UTF-8 texts that hold one JSON object.
-/

namespace VerifierTrace
namespace Config

/-- The configuration in the bytes of a file; `name` is the file's name in messages. -/
def ofBytes (name : String) (bytes : List UInt8) : Except LoadError Config :=
  match Text.Utf8.decode bytes with
  | .error flaw => .error (.invalid (.unreadable name flaw.message))
  | .ok cs => ofText name (Text.unifyNewlines cs)

def load (files : FileTree) (path : Path) : Except LoadError Config :=
  match files.read path with
  | .error e => .error (.invalid (.unreadable path.text (e.message path)))
  | .ok bytes => ofBytes path.text bytes

def fileEvents (name : String) (c : Config) : List Event :=
  c.warnings.map (Event.oddConfigFile name)

end Config
end VerifierTrace
