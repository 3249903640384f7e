import Descent.Collection.Stack
import Descent.Rule.Basic

/-!
# Steps and events

A search for a derivation has steps still to do and events already recorded.  Entering and leaving
a rule are events, and so is matching a token between them.  The event of a decision keeps the
steps that were left to do, so that the search can come back and decide otherwise.

Main results:

- `Step` is work to do and `Event` is work done.
- `Event.render` shows an event.
-/

namespace Descent

/-- The use of a rule. -/
structure Call where
  rule : RuleKey
  /-- The number of the alternative of a choice, or of the passes of a repetition. -/
  data : Nat
  /-- Whether the rule is only a part of another one's body. -/
  transitional : Bool
  deriving DecidableEq, Repr

/-- Work to do. -/
inductive Step where
  | enter (call : Call)
  /-- Leaving a rule; to leave a repetition is a decision. -/
  | leave (call : Call) (decision : Bool)
  deriving DecidableEq, Repr

/-- The use of a rule that a step begins or ends. -/
def Step.call : Step → Call
  | enter c => c
  | leave c _ => c

/-- The steps still to do, the next one on top. -/
abbrev Todo := Stack Step

/-- A token that a rule matched. -/
structure MatchedToken where
  rule : RuleKey
  kind : String
  value : String
  space : String
  /-- The pattern that its lexeme is declared with. -/
  representation : String
  unification : Option Nat
  kept : Bool
  deriving DecidableEq, Repr

/-- Work done.  The depth is the number of declared rules around, less one. -/
inductive Event where
  | enter (call : Call) (depth : Int) (todo : Todo)
  | leave (call : Call) (depth : Int) (todo : Todo)
  | token (t : MatchedToken)
  deriving DecidableEq, Repr

namespace Event

private def renderCall (mark : String) (c : Call) (depth : Int) : String :=
  mark ++ " " ++ c.rule.render ++ " (" ++ toString c.data ++ ") @" ++ toString depth

/-- Shows an event. -/
def render : Event → String
  | enter c depth _ => renderCall ">" c depth
  | leave c depth _ => renderCall "<" c depth
  | token t => "  " ++ t.kind ++ ": " ++ t.value

end Event

end Descent
