/-! # Units of calendar time

The units in which a statement takes an instant apart, rounds it down or adds to it. -/

namespace RecordStore

/-- A unit of calendar time. -/
inductive CalendarUnit where
  | year
  | month
  | day
  | hour
  | minute
  | second
deriving DecidableEq

namespace CalendarUnit

/-- The unit as a keyword. -/
def keyword : CalendarUnit → String
  | year => "YEAR"
  | month => "MONTH"
  | day => "DAY"
  | hour => "HOUR"
  | minute => "MINUTE"
  | second => "SECOND"

/-- The unit as a lower-case word. -/
def word : CalendarUnit → String
  | year => "year"
  | month => "month"
  | day => "day"
  | hour => "hour"
  | minute => "minute"
  | second => "second"

/-- The length in seconds, a month counting as 30 days and a year as 365. -/
def seconds : CalendarUnit → Int
  | year => 365 * 86400
  | month => 30 * 86400
  | day => 86400
  | hour => 3600
  | minute => 60
  | second => 1

end CalendarUnit

end RecordStore
