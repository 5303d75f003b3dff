import TokenAuthority.Json.Parser
import TokenAuthority.Metrics
import TokenAuthority.Report.Failure
import TokenAuthority.Service.Adapter

/-!
# Reported tokens and answers

What the calls of a service answer, as it is shown. A token is shown by what it says, not by its text.
-/

namespace TokenAuthority

open Report

/-! ### Tokens -/

/-- The text in a segment, if it is text. -/
def Segments.text? (segment : List Char) : Option String :=
  (Base64.decode? Base64.urlSafe segment).bind Utf8.decode?

/-- The claims in the payload of a token, if there are any. -/
def Segments.claims? (token : String) : Option (List (String × Json)) := do
  let segments ← (Segments.parse token).toOption
  match Json.ofOctets? (← Base64.decode? Base64.urlSafe segments.payload) with
  | some (.object members) => return members
  | _ => none

/-- A textual claim of a token. -/
def Segments.claim? (token name : String) : Option String := do
  let claims ← Segments.claims? token
  ((claims.find? fun c => c.1 = name).map Prod.snd).bind Json.text?

/-- What a token says: its texts, and how long its signature and its identifiers are. -/
def Report.token (token : String) : Json :=
  let parts := Split.on '.' token.toList
  let text (i : Nat) : Json := optional .string ((parts[i]?).bind Segments.text?)
  let length (name : String) : Option Json :=
    (Segments.claim? token name).map fun s => natural s.utf8ByteSize
  .object <|
    [("header", text 0), ("payload", text 1), ("segments", natural parts.length),
     ("sig_len", natural (parts.getD 2 []).length), ("jti_len", (length "jti").getD .null)]
    ++ ((length "sid").map fun n => ("sid_len", n)).toList

def TokenPair.report (p : TokenPair) : Json :=
  .object
    [("access", Report.token p.accessToken), ("refresh", Report.token p.refreshToken),
     ("token_type", .string p.tokenType), ("expires_in", natural p.expiresIn),
     ("session_id", .string p.sessionId)]

def IssuedToken.report (t : IssuedToken) : Json :=
  .object
    [("token", Report.token t.token), ("token_id", .string t.tokenId),
     ("token_type", .string t.kind.name), ("expires_at", signed t.expiresAt)]

def RefreshedTokens.report (r : RefreshedTokens) : Json :=
  .object
    [("access", Report.token r.accessToken), ("refresh", optional Report.token r.refreshToken),
     ("token_type", .string r.tokenType), ("expires_in", natural r.expiresIn)]

/-! ### Answers -/

def Verdict.report (v : Verdict) : Json :=
  .object
    [("valid", .bool v.isAccepted), ("accepted", .bool v.payload?.isSome),
     ("stage", .string v.stage.name), ("reason", optional (fun r => .string r.code) v.reason?),
     ("payload", optional Credential.toJson v.payload?)]

def TokenService.Health.report (h : TokenService.Health) : Json :=
  .object
    [("healthy", .bool h.isHealthy), ("algorithm", .string h.algorithm.name),
     ("key_id", .string h.keyId), ("can_sign", .bool h.canSign), ("backend", .string h.store.backend),
     ("reachable", .bool h.store.isReachable), ("has_latency", .bool h.store.isReachable),
     ("circuit", .string h.store.circuit.name),
     ("store_error", optional (fun e => .string e.message) h.store.error)]

/-- Who presents a token; with a role, also whether the user has it. -/
def Identity.report (i : Identity) (role : Option String) : Json :=
  .object <|
    [("user_id", signed i.userId), ("email", .string i.email), ("roles", texts i.roles),
     ("expires_at", signed i.expiresAt), ("token_id", .string i.tokenId),
     ("session_id", optional .string i.sessionId)]
    ++ (role.map fun r => ("has_role", Json.bool (i.hasRole r))).toList

/-- An entry, with what follows from it. -/
def Revocation.Entry.report (e : Revocation.Entry) : Json :=
  .object
    [("json", .string e.text), ("ttl", span e.ttl), ("expires_at", signed e.expiresAt),
     ("reason", .string e.reason.name)]

def Revocation.BulkOutcome.report (o : Revocation.BulkOutcome) : Json :=
  .object
    [("revoked", texts o.revoked), ("already_revoked", texts o.alreadyRevoked),
     ("failed", .array (o.failed.map fun f => texts [f.1, f.2]))]

/-- Counters, each under its name with labels. -/
def Metrics.Counts.report (counts : Metrics.Counts) : Json :=
  .object (counts.map fun c => (c.1.text, natural c.2))

/-! ### Cache calls -/

def Cache.Request.report : (r : Cache.Request) → r.Value → Json
  | .get _, found => optional .string found
  | .setIfAbsent _ _ _, stored => .bool stored
  | .contains _, found => .bool found
  | .delete _, removed => .bool removed
  | .increment _ _, count => natural count.toNat
  | .ping, _ => .null

/-- A cache call, as it is recorded. -/
def Cache.Request.record : Cache.Request → Json
  | .get key => texts ["get", key]
  | .setIfAbsent key value ttl =>
    .array [.string "set_nx_ex", .string key, .string value, span ttl]
  | .contains key => texts ["exists", key]
  | .delete key => texts ["delete", key]
  | .increment key window => .array [.string "incr", .string key, span window]
  | .ping => texts ["ping"]

end TokenAuthority
