import TokenAuthority.Redis.Error
import TokenAuthority.Text.Integer

/-!
# Replies of a cache server

What a server replies, and how a reply is read: a text from a bulk or a status, a number from a number or
from such a text, nothing where a value is optional. Every other reply is an error.
-/

namespace TokenAuthority.Redis

inductive Reply where
  | int (value : Int)
  | bulk (text : String)
  | status (text : String)
  | error (text : String)
  | array (items : List Reply)
  | nil

namespace Reply

/-- The kinds of errors that servers name by the first word of a reply. -/
def errorKinds : List (String × String) :=
  [("ERR", "ResponseError"), ("EXECABORT", "ExecAbortError"), ("LOADING", "BusyLoadingError"),
   ("NOSCRIPT", "NoScriptError"), ("MOVED", "Moved"), ("ASK", "Ask"), ("TRYAGAIN", "TryAgain"),
   ("CLUSTERDOWN", "ClusterDown"), ("CROSSSLOT", "CrossSlot"), ("MASTERDOWN", "MasterDown"),
   ("READONLY", "ReadOnly"), ("NOTBUSY", "NotBusy")]

/-- The error that a text signals. -/
def errorOf (text : String) : Error :=
  let word := String.ofList (text.toList.takeWhile (· ≠ ' '))
  let detail := String.ofList ((text.toList.dropWhile (· ≠ ' ')).drop 1)
  let kind := ((errorKinds.find? (·.1 = word)).map Prod.snd).getD "ExtensionError"
  .described kind "An error was signalled by the server" (if detail.isEmpty then none else some detail)

/-- The error for a reply that does not fit. -/
def misfit (wanted : String) : Error :=
  .described "TypeError" "Response was of incompatible type" (some wanted)

def text : Reply → Except Error String
  | .bulk text => .ok text
  | .status text => .ok text
  | .error text => .error (errorOf text)
  | _ => .error (misfit "Response type not string compatible.")

def optionalText : Reply → Except Error (Option String)
  | .nil => .ok none
  | r => r.text.map some

/-- A number from the text of a reply. -/
def numberText {α : Type} (read : String → Option α) (r : Reply) : Except Error α :=
  match r with
  | .int _ => .error (misfit "Response type not convertible to numeric.")
  | r => do
    match read (← r.text) with
    | some n => return n
    | none => throw (misfit "Could not convert from string.")

def int64 : Reply → Except Error Int
  | .int n => .ok n
  | r => r.numberText fun s => (Integer.readInt64 s).toOption

/-- A count; a negative number wraps around. -/
def uint64 : Reply → Except Error UInt64
  | .int n => .ok (Int64.ofInt n).toUInt64
  | r => r.numberText Integer.uint64?

end Reply

end TokenAuthority.Redis
