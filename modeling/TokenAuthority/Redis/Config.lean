import TokenAuthority.Text.Integer
import TokenAuthority.Text.Quoted
import TokenAuthority.Time.Span
import TokenAuthority.Url.Basic

/-!
# Connection settings of a cache server

How a Redis server is reached. A URL, if there is one, wins over the other parts of the address. What is
shown of the settings in logs is meant to hide passwords: of a URL only what follows its last at sign
is shown.
-/

namespace TokenAuthority.Redis

/-- How a server is reached. -/
structure Config where
  url : Option String := none
  host : String := "127.0.0.1"
  port : UInt16 := 6379
  db : Int64 := 0
  username : Option String := none
  password : Option String := none
  /-- How many connections are kept; none counts as one. -/
  poolSize : Nat := 20
  /-- The deadline of one attempt to connect. -/
  connectTimeout : Span := Span.ofSecs 5
  /-- The deadline of one reply. -/
  responseTimeout : Span := Span.ofSecs 5
deriving DecidableEq

/-- Where a server listens. -/
inductive Address where
  | tcp (host : String) (port : Nat)
  /-- A socket under a path of octets. -/
  | socket (path : List UInt8)
deriving DecidableEq

/-- What a connection is made to: a server, one of its databases, and the credentials for it. -/
structure Target where
  address : Address
  db : Int64
  username : Option String
  password : Option String
deriving DecidableEq

/-- Why settings name no target. -/
inductive ConfigError where
  | emptyHost
  | url (flaw : String)
deriving DecidableEq

namespace ConfigError

/-- The error in words, without its cause. -/
def message : ConfigError → String
  | .emptyHost => "Redis host must not be empty"
  | .url _ => "failed to parse Redis connection URL"

/-- The error and its cause in words. -/
def chain : ConfigError → String
  | .emptyHost => emptyHost.message
  | .url flaw => (url flaw).message ++ ": " ++ flaw ++ "- InvalidClientConfig"

end ConfigError

namespace Target

def database? (text : String) : Except ConfigError Int64 :=
  match Integer.readInt64 text with
  | .ok n => .ok (Int64.ofInt n)
  | .error _ => .error (.url "Invalid database number")

/-- The text of an encoded part of a URL. -/
def decoded (part : List Char) (name : String) : Except ConfigError String :=
  match Percent.decode? part with
  | some text => .ok text
  | none => .error (.url (name ++ " is not valid UTF-8 string"))

/-- The database that a path names; slashes around it do not matter. -/
def databaseOfPath (path : Url.Path) : Except ConfigError Int64 :=
  let text := match path with
    | .plain text => text
    | .segments segments => segments.flatMap fun s => '/' :: s
  let trimmed := ((text.dropWhile (· = '/')).reverse.dropWhile (· = '/')).reverse
  if trimmed.isEmpty then .ok 0 else database? (String.ofList trimmed)

def defaultPort : Nat := 6379

def ofHostUrl (u : Url) : Except ConfigError Target := do
  let host ← match u.host with
    | none => throw (.url "Missing hostname")
    | some (.name text) => pure text
    | some (.ipv6 groups) => pure (Ipv6.text groups)
  if u.scheme = "rediss" then
    throw (.url "can't connect with TLS, the feature is not enabled")
  let db ← databaseOfPath u.path
  let username ← if u.username.isEmpty then pure none else some <$> decoded u.username "Username"
  let password ← u.password.mapM fun p => decoded p "Password"
  return { address := .tcp host (u.port.getD defaultPort), db, username, password }

/-- The octets of a path under which a socket can be: that of a URL of this machine. -/
def socketPath? (u : Url) : Option (List UInt8) :=
  match u.path with
  | .plain _ => none
  | .segments segments =>
    if u.host = none ∨ u.host = some (.name "localhost") then
      let octets := segments.flatMap fun s => 0x2f :: Percent.octets s
      -- A letter with a colon or a bar at the end is a drive, and a slash follows it.
      match octets.reverse with
      | last :: letter :: _ :: _ =>
        if (last = 0x3a ∨ last = 0x7c) ∧ (Char.ofNat letter.toNat).isAlpha then
          some (octets ++ [0x2f])
        else some octets
      | _ => some octets
    else none

def ofSocketUrl (u : Url) : Except ConfigError Target := do
  let value? (name : String) : Option String := (u.query.getD []) |> (Percent.queryValue? · name)
  match socketPath? u with
  | none => throw (.url "Missing path")
  | some path =>
    let db ← (value? "db").elim (pure 0) database?
    return { address := .socket path, db, username := value? "user", password := value? "pass" }

def ofUrl (text : String) : Except ConfigError Target :=
  match Url.parse? text with
  | none => .error (.url "Redis URL did not parse")
  | some u =>
    if ["redis", "rediss"].contains u.scheme then ofHostUrl u
    else if ["unix", "redis+unix"].contains u.scheme then ofSocketUrl u
    else .error (.url "Redis URL did not parse")

end Target

namespace Config

def target (c : Config) : Except ConfigError Target :=
  match c.url with
  | some text => Target.ofUrl text
  | none =>
    if c.host.isEmpty then .error .emptyHost
    else
      .ok { address := .tcp c.host c.port.toNat, db := c.db, username := c.username,
            password := c.password }

def endpoint (c : Config) : String :=
  match c.url with
  | none => c.host ++ ":" ++ toString c.port.toNat ++ "/" ++ toString c.db.toInt
  | some text =>
    match Url.splitLast? '@' text.toList with
    | some (_, rest) => "redis://***@" ++ String.ofList rest
    | none => text

def redacted (c : Config) : String :=
  let password := if c.password.isSome then "Some(\"***\")" else "None"
  "RedisPoolConfig \x7b endpoint: " ++ Quoted.quote c.endpoint ++ ", db: " ++ toString c.db.toInt
    ++ ", password: " ++ password ++ ", pool_size: " ++ toString c.poolSize
    ++ ", connect_timeout: " ++ c.connectTimeout.text
    ++ ", response_timeout: " ++ c.responseTimeout.text ++ " \x7d"

end Config

end TokenAuthority.Redis
