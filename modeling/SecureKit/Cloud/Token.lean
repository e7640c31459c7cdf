import SecureKit.Cloud.Identity
import SecureKit.Json.Writer

/-!
# Connection Tokens

The board logs in with a signed token whose claims name the time of issue, the time of expiry and
the project. The expiry never passes the end of 32-bit time (`toNat_expiry`).
-/

namespace SecureKit

/-- The claims of a connection token. -/
structure Claims where
  /-- Time of issue. -/
  issued : UInt32
  /-- Time of expiry. -/
  expiry : UInt32
  /-- The project the token is for. -/
  audience : String
  deriving DecidableEq

namespace Claims

/-- The lifetime of a token in seconds. -/
def lifetime : Nat := 86400

/-- The last second of 32-bit time. -/
def lastSecond : Nat := UInt32.size - 1

/-- Claims of a token issued at `now`. -/
def issue (now : UInt32) (project : String) : Claims where
  issued := now
  expiry := UInt32.ofNat (min (now.toNat + lifetime) lastSecond)
  audience := project

/-- The claims as a JSON object. -/
def json (claims : Claims) : Bytes :=
  Json.object [
    Json.member "iat" (Decimal.digits claims.issued.toNat),
    Json.member "exp" (Decimal.digits claims.expiry.toNat),
    Json.member "aud" (Json.quoted claims.audience)]

/-- A token expires a lifetime after its issue, or with the end of time. -/
theorem toNat_expiry (now : UInt32) (project : String) :
    (issue now project).expiry.toNat = min (now.toNat + lifetime) lastSecond := by
  have h : min (now.toNat + lifetime) lastSecond < UInt32.size :=
    Nat.lt_of_le_of_lt (Nat.min_le_right _ _) (by decide)
  simp only [issue]
  rw [UInt32.toNat_ofNat_of_lt' h]

end Claims

/-- What the board presents to open a message session. -/
structure Login where
  clientId : String
  username : String
  /-- The signed token. -/
  password : String
  /-- The longest silence in seconds. -/
  keepAlive : UInt16
  /-- Whether the session starts without the state of an earlier one. -/
  cleanSession : Bool
  deriving DecidableEq

namespace Login

/-- The longest silence of a session in seconds. -/
def standardKeepAlive : UInt16 := 60

/-- The login of a client with a signed token. -/
def ofToken (clientId token : String) : Login where
  clientId := clientId
  username := Identity.username
  password := token
  keepAlive := standardKeepAlive
  cleanSession := true

end Login

end SecureKit
