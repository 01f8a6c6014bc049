import Mathlib

/-!
# Instants and their texts

The database keeps an instant as microseconds since 1970 in UTC.  A handler
reads it as RFC 3339 text and parses the text back to whole seconds, so two
roundings occur: `date_trunc('hour', ...)` in SQL and the seconds of
`parse_epoch`.  Both round towards the past.

`Rfc3339` is a text as the parser sees it: the instant it denotes, or a text
that is not an instant.
-/

namespace ReproitCloud

/-- An instant, in microseconds since the Unix epoch. -/
abbrev Micros := Int

/-- The microseconds of a second. -/
def microsPerSecond : Int := 1000000

/-- The microseconds of an hour. -/
def microsPerHour : Int := 3600 * microsPerSecond

/-- `date_trunc('hour', t)`. -/
def hourStart (t : Micros) : Micros := t / microsPerHour * microsPerHour

/-- `DateTime::timestamp`: whole seconds, rounded down. -/
def epochOf (t : Micros) : Int := t / microsPerSecond

/-- A timestamp text. -/
inductive Rfc3339 where
  /-- A text that denotes an instant. -/
  | instant (moment : Micros)
  /-- A text that does not parse. -/
  | malformed (text : String)
deriving DecidableEq, Repr

/-- `DateTime::to_rfc3339`. -/
def toRfc3339 (t : Micros) : Rfc3339 := .instant t

/-- `parse_epoch`: the seconds of a text that is an instant. -/
def parseEpoch : Rfc3339 → Option Int
  | .instant t => some (epochOf t)
  | .malformed _ => none

@[simp] theorem parseEpoch_toRfc3339 (t : Micros) : parseEpoch (toRfc3339 t) = some (epochOf t) :=
  rfl

theorem epochOf_mono {t u : Micros} (h : t ≤ u) : epochOf t ≤ epochOf u :=
  Int.ediv_le_ediv (by decide) h

end ReproitCloud
