/-
# Rates

A controlled machine runs at a number of cycles per second. A rate is accepted if it is finite and
positive. Between two cycles lies an interval of `1 / rate` seconds, which is kept as a duration of
less than `2^64` seconds.

The moment of the next cycle is one interval ahead of the last one, on a clock whose moments lie less
than `2^63` seconds after its start. Here the clock starts with the run, at zero, so that an interval of
less than `2^63` seconds leads to a moment on it. On a clock that started earlier the last of these
moments are too late already; how much earlier it started is not known to the program.
-/

import DecimalMachine.Decimal.Shortest

namespace DecimalMachine
namespace Rate

/-- Cycles per second where nothing else is asked for. -/
def standard : Float := 10.0

/-- Whether a rate is one that a controller takes: finite and above zero. -/
def isAccepted (rate : Float) : Bool := rate.isFinite && decide (0.0 < rate)

/-- Seconds between two cycles. -/
def interval (rate : Float) : Float := 1.0 / rate

/-- Whether the interval is a duration. -/
def hasDuration (rate : Float) : Bool := decide (interval rate < 18446744073709551616.0)

/-- Whether the moment one interval after the start of the clock is on the clock. -/
def hasDeadline (rate : Float) : Bool := decide (interval rate < 9223372036854775808.0)

end Rate
end DecimalMachine
