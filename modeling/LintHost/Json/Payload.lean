import LintHost.Fault
import LintHost.Json.Reader
import LintHost.Text.Utf8
import LintHost.Value.Basic

/-!
# JSON from outside

Texts that should be JSON, but need not be: files, the output of children, payloads of a host. What is
no JSON is nothing that anybody reports; only nesting that is too deep is a fault.

* `Json.attempt`: the value that a text spells, if it spells one;
* `Json.ofPayload`: the same for a payload of any kind, with a value in place of none.
-/

namespace LintHost.Json

/-- The value that a text spells, if it spells one. -/
def attempt (s : String) : Except Fault (Option Json) :=
  match Json.read s with
  | .ok j => .ok (some j)
  | .error .tooDeep => .error .tooDeep
  | .error _ => .ok none

/-- The value that a payload spells. Bytes are read as text, whatever is no UTF-8 left out. -/
def ofPayload (payload fallback : Value) : Except Fault Value := do
  let spelled ← match payload with
    | .null => pure none
    | .text s => attempt s
    | .bytes bs => attempt (Text.decodeLenient ⟨bs.toArray⟩)
    | _ => throw .wrongType
  return (spelled.map Value.ofJson).getD fallback

end LintHost.Json
