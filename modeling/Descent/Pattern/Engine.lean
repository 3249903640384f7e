import Descent.Pattern.Matching
import Descent.Pattern.Reader
import Descent.Token.Engine

/-!
# The engine of patterns

A pattern is compiled by reading its written form, and it matches as far as the most preferred way
through it leads.  The bodies of rules are cut into signs with this engine, and a host may cut texts
with it or with another one.

Main results:

- `Pattern.engine` compiles a pattern by reading it.
-/

namespace Descent.Pattern

/-- The matcher of a pattern. -/
def Node.matcher (a : Node) : Matcher := fun before after =>
  (a.matchLength? before after).map (before.length + ·)

/-- Compiles patterns by reading them. -/
def engine : Engine where
  compile unicode pattern :=
    match ofString unicode pattern with
    | .ok a => .ok a.matcher
    | .error fault => .error fault.message

end Descent.Pattern
