import BearerAuth.KeyPair.Generation
import BearerAuth.Service

/-!
# Fixtures

Claims, keys and a service to try the library with: a user and an administrator, two key pairs that
never change, a service that signs with the first of them over a counted store, and tokens that
nobody signed.
-/

namespace BearerAuth

namespace Fixtures

/-! ### Claims -/

/-- The key id of the first key pair. -/
def kid : String := "54bb2165-71e1-41a6-af3e-7da4a0e1e2c1"

/-- A user. -/
def user : User := ⟨UserId.ofNat 0x0123456789ab4def8123456789abcdef, "gopher"⟩

/-- An administrator. -/
def admin : User := ⟨UserId.ofNat 0xad, "admin"⟩

/-- The claims of the user, who logs in now. -/
def freshUserClaims (now : Clock) : Claims :=
  Claims.ofLogin user [.user] Claims.loginLifetime now

/-- The claims of the administrator, who logs in now. -/
def freshAdminClaims (now : Clock) : Claims :=
  Claims.ofLogin admin [.admin, .user] Claims.loginLifetime now

/-- The claims of the user, past their end for an hour. -/
def endedUserClaims (now : Clock) : Claims where
  subject := user.id
  issuer := Claims.loginIssuer
  issuedAt := now.toInt64 - 7200
  expiresAt := now.toInt64 - 3600
  user := user
  roles := RoleSet.ofList [.user]

/-! ### Keys -/

/-- The number whose digits to the base `2 ^ 256` are given. -/
def ofLimbs (limbs : List Nat) : Nat :=
  limbs.foldl (fun n limb => n <<< 256 + limb) 0

/-- The greater prime of the first pair. -/
def primaryPrime1 : Nat :=
  ofLimbs [
    0xeefc9a1b6344caef6577d09a805e65623df07c169b25b6be86bf0fd10d1c408f,
    0x2b09671479e25af11f7ff8ba11b870bb51b63dabbc62e3ce63717c590266aa73,
    0x11218875fbbf5221fa62aca6e6efe48d030a770348a41e49b3663fcef604b53c,
    0x12bb22bbda57805a82fe9527789e8d2dab3d6ece96d83b45a5add3b58b7bd0df]

/-- The lesser prime of the first pair. -/
def primaryPrime2 : Nat :=
  ofLimbs [
    0xdd1e4b095416ea8afabcad21f8851a83fb0c829ad683192dfd635f564a066c4c,
    0x5c4c163139b17e8476be5d4d2fbfcf92bb56e2d9a181500f2ea3cbce778e41f9,
    0x7b31887e60c15f901749eb5a7288b017ab6ae99b8b0af01c53f23552888d7413,
    0xa2392dabc2d40e771bc72c81493f79d5677d1c911088f03ccbee236d9f9b4795]

/-- The greater prime of the second pair. -/
def secondaryPrime1 : Nat :=
  ofLimbs [
    0xead9a2bd5f0231a2dc6f379b42aef5175f35136217881477b0b236e922bd121a,
    0x44970001cc8a039d2ac4ba7b879a51dad18007dbcf2f55be7765adb6514f23da,
    0x103f8423d664f7ebd9ac6d4b497dde553b29a4a34a34cc9026c987b7cfd82798,
    0x6bc34078904eee699cbe929451fb2a5b0112b01754f7ceb5e7c05c523262f387]

/-- The lesser prime of the second pair. -/
def secondaryPrime2 : Nat :=
  ofLimbs [
    0xe9d9b617f22b257c3b7c6dca3645446713371dd104987122caa99a8e9d38bf80,
    0x562980d7698b05f2a2bdb2d2dba4d123945ce2a1fd3207a68c231cfd2368af87,
    0x630f4094d09bd98162213291f871847da03b7c8a6e1d9e909385d24efa4af206,
    0xdac41789c1c64211b4d6428062777e0cda63b1a7f49efc94655c0010b611c5af]

/-- The first key pair. -/
def primaryPair : KeyPair :=
  (KeyPair.ofPrimes? primaryPrime1 primaryPrime2).get (by decide +kernel)

/-- The second key pair. -/
def secondaryPair : KeyPair :=
  (KeyPair.ofPrimes? secondaryPrime1 secondaryPrime2).get (by decide +kernel)

/-- A store that holds the first pair under a key id. -/
def store (kid : String) : KeyStore :=
  KeyStore.empty.insert kid primaryPair

/-! ### A service -/

/-- Settings to sign with the first pair. -/
def config : AuthConfig where
  activeKid := kid
  leeway := Duration.zero
  rules := AuthConfig.standardRules
  validKid := by decide +kernel
  someRule := by decide +kernel
  usableRules := by decide +kernel

/-- A service with the rules that the library knows, over a counted store. -/
def service : AuthService (Counted KeyStore) :=
  AuthService.standard config KeyStore.source.counting

/-- The state of the service before its first step. -/
def start : ServiceState (Counted KeyStore) :=
  AuthService.start (Counted.start (store kid))

/-! ### Tokens -/

/-- The claims signed with the first pair. -/
def sign (claims : Claims) : Except AuthFailure String :=
  match primaryPair.privatePem with
  | .ok pem => Token.encode claims kid pem
  | .error e => .error (.keyLookup kid e)

/-- The header that presents a token. -/
def bearer (token : String) : String := "Bearer " ++ token

/-- A token of any header and payload, without a signature. -/
def unsignedToken (header payload : String) : String :=
  Token.encodeSegment (utf8 header) ++ "." ++ Token.encodeSegment (utf8 payload) ++ "."

end Fixtures

end BearerAuth
