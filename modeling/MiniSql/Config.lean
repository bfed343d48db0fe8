import MiniSql.Json

namespace MiniSql

/-- How strictly statements are carried out. -/
structure Config where
  /-- NULL for a NOT NULL column is an error rather than the implicit default. -/
  strictMode : Bool := true
  /-- A column read from a group must have one value in it. -/
  onlyFullGroupBy : Bool := false
  /-- Seconds that the clock is ahead. -/
  clockOffset : Int64 := 0
  /-- The most rows that a table may have when it is scanned. -/
  maxScanRows : Option Nat := none
deriving DecidableEq

namespace Config

def permissive : Config := { strictMode := false }

def toJson (c : Config) : Json :=
  Json.ofMembers [
    ("strict_mode", .bool c.strictMode),
    ("only_full_group_by", .bool c.onlyFullGroupBy),
    ("clock_offset_seconds", .number (.int c.clockOffset.toInt)),
    ("max_scan_rows", match c.maxScanRows with
      | some n => .number (.int n)
      | none => .null)]

end Config

end MiniSql
