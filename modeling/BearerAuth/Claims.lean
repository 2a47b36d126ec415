import BearerAuth.Duration
import BearerAuth.Json.Printer
import BearerAuth.Role
import BearerAuth.UserId

/-!
# Claims

What a token says about its bearer: who they are, who says so, since when and until when, and which
roles they hold.  Points in time are seconds since the start of the year 1970.
-/

namespace BearerAuth

/-- The user to whom a token is issued. -/
structure User where
  id : UserId
  username : String
deriving DecidableEq, Repr

/-- The claims that a token carries. -/
structure Claims where
  subject : UserId
  issuer : String
  issuedAt : Int64
  expiresAt : Int64
  user : User
  roles : RoleSet
deriving DecidableEq

/-- The wall clock, in whole seconds. -/
abbrev Clock := UInt64

namespace Claims

/-- The issuer of claims that a login produces. -/
def loginIssuer : String := "asperitas project"

/-- The lifetime of claims that a login produces. -/
def loginLifetime : Duration := ⟨3600, 0, by decide, Duration.zero.nanos_lt⟩

/-- The sum of two points in time, kept within the limits of signed words of 64 bits. -/
def saturatingAdd (a b : Int64) : Int64 :=
  Int64.ofInt (max (-0x8000000000000000) (min 0x7FFFFFFFFFFFFFFF (a.toInt + b.toInt)))

/-- The claims of a user who logs in now, valid for the given time. -/
def ofLogin (user : User) (roles : List Role) (lifetime : Duration) (now : Clock) : Claims where
  subject := user.id
  issuer := loginIssuer
  issuedAt := now.toInt64
  expiresAt :=
    saturatingAdd now.toInt64 (Int64.ofNat (min lifetime.seconds 0x7FFFFFFFFFFFFFFF))
  user := user
  roles := RoleSet.ofList roles

/-- The claims carry a role. -/
def hasRole (c : Claims) (r : Role) : Bool :=
  c.roles.contains r

/-- The claims carry the role of an administrator. -/
def isAdmin (c : Claims) : Bool :=
  c.hasRole .admin

/-- The claims are past their end at a point in time. -/
def hasEndedBy (c : Claims) (now : Int64) : Bool :=
  c.expiresAt ≤ now

end Claims

/-- A user as JSON. -/
def User.toJson (u : User) : String :=
  Json.object [("id", Json.quote u.id.toText), ("username", Json.quote u.username)]

/-- A set of roles as JSON. -/
def RoleSet.toJson (s : RoleSet) : String :=
  Json.array (s.toList.map fun r => Json.quote r.name)

/-- Claims as JSON. -/
def Claims.toJson (c : Claims) : String :=
  Json.object
    [("sub", Json.quote c.subject.toText), ("iss", Json.quote c.issuer),
      ("iat", Decimal.ofInt c.issuedAt.toInt), ("exp", Decimal.ofInt c.expiresAt.toInt),
      ("user", c.user.toJson), ("roles", c.roles.toJson)]

end BearerAuth
