import AgentFlow.Number.Binary64
import AgentFlow.Number.Decimal
import AgentFlow.Text.Basic

/-!
# Identifiers

Ids that are made from a clock reading.
-/

namespace AgentFlow

/-- A clock reading in seconds as whole milliseconds, without the fraction. -/
def milliseconds (now : Binary64) : Except Binary64.NotWhole Int :=
  (now * Binary64.ofInt 1000).truncate

/-- The characters of the random part of an id. -/
def idAlphabet : List Char := "0123456789abcdefghijklmnopqrstuvwxyz".toList

/-- The word that an id starts with when none is given. -/
def defaultIdWord : String := "item"

/-- An id: a word, the time in milliseconds, and characters of the alphabet that were picked at
random. -/
def makeId (word : Text) (now : Binary64) (picks : List Nat) : Except Binary64.NotWhole Text :=
  (milliseconds now).map fun n ↦
    word ++ "-" ++ Text.ofChars (intDigits n) ++ "-"
      ++ Text.ofChars (picks.filterMap fun i ↦ idAlphabet[i]?)

end AgentFlow
