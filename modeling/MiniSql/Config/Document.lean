import MiniSql.Config
import MiniSql.Json.Decode

namespace MiniSql.Config

def fieldNames : List String :=
  ["strict_mode", "only_full_group_by", "clock_offset_seconds", "max_scan_rows"]

/-- The configuration that a document describes; absent fields keep their default. -/
def ofJson? (document : Json) : Option Config := do
  match ← document.fields? fieldNames with
  | [strictMode, onlyFullGroupBy, clockOffset, maxScanRows] =>
    let default : Config := {}
    return {
      strictMode := ← Json.fieldOr Json.bool? default.strictMode strictMode
      onlyFullGroupBy := ← Json.fieldOr Json.bool? default.onlyFullGroupBy onlyFullGroupBy
      clockOffset := ← Json.fieldOr Json.int64? default.clockOffset clockOffset
      maxScanRows := ← Json.fieldOr (Json.nullable? Json.nat?) default.maxScanRows maxScanRows }
  | _ => none

end MiniSql.Config
