import VerifierTrace.Files.Path
import VerifierTrace.Text.Lines

/-!
# VerifierTrace.Files.Home

Home directories of users, as a table of accounts lists them: one account a line, with fields
between colons, of which the first is the name and the sixth the home directory.
-/

namespace VerifierTrace

/-- Home directories by the names of users; the empty name is that of the user at hand. -/
abbrev Homes := List (String × Path)

namespace Homes

def account? (line : String) : Option (String × Path) :=
  match line.splitOn ":" with
  | name :: _ :: _ :: _ :: _ :: home :: _ => some (name, Path.ofString home)
  | _ => none

def ofAccounts (text : String) : Homes := (Text.linesOf text).filterMap account?

/-- The path with the home directory of a user in the place of the user's name; `none` if the path
starts with the name of an unknown user. -/
def expand? (homes : Homes) (p : Path) : Option Path :=
  match p.user? with
  | none => some p
  | some user => (homes.lookup user).map p.inHome

end Homes
end VerifierTrace
