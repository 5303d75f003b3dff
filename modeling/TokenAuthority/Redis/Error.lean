import TokenAuthority.Cache.Basic

/-!
# Errors of a cache server

What can go wrong between a client and a server, and what it means for the cache: trouble with the
connection may pass, anything else does not.
-/

namespace TokenAuthority.Redis

/-- What went wrong between a client and a server. -/
inductive Error where
  /-- The connection failed; the text is that of the system. -/
  | connection (text : String)
  /-- Something of a kind went wrong, with a description and perhaps more about it. -/
  | described (kind description : String) (detail : Option String)
deriving DecidableEq

namespace Error

/-- The kind of an error that the client reports as trouble with the connection. -/
def connectionKind : String := "IoError"

def message : Error → String
  | .connection text => text
  | .described kind description none => description ++ "- " ++ kind
  | .described kind description (some detail) => description ++ " - " ++ kind ++ ": " ++ detail

/-- Whether the same call may succeed when it is made again. -/
def isTransient : Error → Bool
  | .connection _ => true
  | .described kind _ _ => kind = connectionKind

def toCacheError (e : Error) : Cache.Error :=
  if e.isTransient then .unavailable e.message else .protocol e.message

end Error

end TokenAuthority.Redis
