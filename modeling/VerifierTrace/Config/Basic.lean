import VerifierTrace.Machine.State
import VerifierTrace.Text.Wide

/-!
# VerifierTrace.Config.Basic

The switches and values that an analysis can be given.
-/

namespace VerifierTrace

structure Config where
  /-- Whether a call before the notice of a valid global function becomes a call of a helper. -/
  foldCalls : Bool := true
  /-- Whether facts on lines of their own are added to the instruction before. -/
  mergeBlocks : Bool := true
  /-- The value of `r1` at program entry. -/
  context : WideText := "ctx()"
  /-- The value of `r10` in every new frame. -/
  frameBase : WideText := "fp-0"
  deriving DecidableEq, Repr

namespace Config

/-- The values that the machine starts with, as strings. -/
def setup (c : Config) : Setup := ⟨c.context.string, c.frameBase.string⟩

/-- What is odd about a configuration that is valid all the same. -/
def warnings (c : Config) : List String :=
  (if c.context.isEmpty then ["initial_context_value is empty; r1 will look unset"] else []) ++
  (if ['f', 'p'].isPrefixOf c.frameBase.front.toList then []
    else ["frame_base_value " ++ c.frameBase.quote ++ " does not name a stack slot"])

end Config
end VerifierTrace
