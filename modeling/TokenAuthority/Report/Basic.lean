import TokenAuthority.Binary64
import TokenAuthority.Json.Basic
import TokenAuthority.Time.Span

/-!
# Reports

The JSON form in which values are shown to whoever operates the library: numbers exactly, spans as
seconds and nanoseconds, what is missing as `null`.
-/

namespace TokenAuthority.Report

def natural (n : Nat) : Json := .int n

def signed (n : Int64) : Json := .int n.toInt

def texts (items : List String) : Json := .array (items.map .string)

def optional {α : Type} (view : α → Json) : Option α → Json
  | some a => view a
  | none => .null

def span (s : Span) : Json := .array [natural s.secs, natural s.subsecNanos]

/-- A finite number as an exact decimal; there is none for the others. -/
def real : Binary64 → Json
  | .finite negative significand exponent =>
    let places := (-exponent).toNat
    .number (.decimal negative (10 * significand * 2 ^ exponent.toNat * 5 ^ places) (-(places + 1)))
  | _ => .null

end TokenAuthority.Report
