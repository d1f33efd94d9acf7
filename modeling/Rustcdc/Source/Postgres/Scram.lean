import Rustcdc.Core.Bytes
import Rustcdc.Core.Position
import Rustcdc.Lib.Run

/-! Password authentication of the replication connection.  The loop answers each request of the server
on its own: it does not require that a SCRAM exchange it began is brought to its end. -/
namespace Rustcdc.Postgres
section
/-- The libraries the exchange calls. -/
structure ScramPrimitives where
  /-- HMAC-SHA-256 of a message under a key. -/
  hmac : Bytes → Bytes → Bytes
  sha256 : Bytes → Bytes
  md5 : Bytes → Bytes
  /-- Base64 with the standard alphabet. -/
  encode : Bytes → String
  decode : String → Except String Bytes
  fromUtf8 : Bytes → Except String String
  fromUtf8Lossy : Bytes → String

def textBytes (s : String) : Bytes := utf8 s.toList
def hexLower (bytes : Bytes) : String := String.ofList (bytes.flatMap fun b => Json.hexByte b.toNat)

def xorInto : Bytes → Bytes → Bytes
  | a::as, b::bs => (a^^^b)::xorInto as bs
  | as, [] => as
  | [], _ => []

variable (p : ScramPrimitives)

def hiLoop (password : Bytes) : ℕ → Bytes → Bytes → Bytes
  | 0, _, result => result
  | n+1, previous, result =>
    let previous := p.hmac password previous
    hiLoop password n previous (xorInto result previous)

def hi (password salt : Bytes) (iterations : ℕ) : Bytes :=
  let previous := p.hmac password (salt++[0,0,0,1])
  hiLoop p password (iterations-1) previous previous

/-- Comparison without an early exit. -/
def constantTimeEq (left right : Bytes) : Bool :=
  left.length = right.length && (List.zipWith (· ^^^ ·) left right).foldl (· ||| ·) 0 = 0

def md5PasswordResponse (user password : String) (salt : Bytes) : String :=
  let innerHex := hexLower (p.md5 (textBytes password++textBytes user))
  "md5"++hexLower (p.md5 (textBytes innerHex++salt))
end
section
def scramSha256 : String := "SCRAM-SHA-256"
def scramSha256Plus : String := "SCRAM-SHA-256-PLUS"
def maxScramIterations : ℕ := 1000000

/-- The mechanism to use; it is the one this client implements. -/
def selectSaslMechanism (offered : List String) : Except Error String :=
  if offered.contains scramSha256 then .ok scramSha256
  else .error (.sourceError ("postgres offered no SASL mechanism this client implements. Offered: ["++
    ", ".intercalate offered++"]; supported: ["++scramSha256++"]. If the server offers only "++
    scramSha256Plus++", it is requiring TLS channel binding, which rustcdc's replication transport "++
    "does not implement — use WalTransport::SqlPeek, which authenticates through tokio-postgres."))

/-- Client state carried between the two round trips. -/
structure ScramExchange where
  clientFirstBare : String
  password : String
  serverSignature : Option Bytes

structure ServerFirst where
  nonce : String
  salt : Bytes
  iterations : ℕ

/-- The fields read so far. -/
structure ServerFirstParts where
  nonce : Option String
  salt : Option Bytes
  iterations : Option ℕ

variable (p : ScramPrimitives)

/-- The mechanism names of an `AuthenticationSASL` body. -/
def mechanismNames (current : Bytes) : Bytes → List Bytes
  | [] => [current]
  | b::bs => if b = 0 then current::mechanismNames [] bs else mechanismNames (current++[b]) bs

def parseSaslMechanisms (body : Bytes) : List String :=
  ((mechanismNames [] body).filter (!·.isEmpty)).map p.fromUtf8Lossy

namespace ServerFirst
def parseFields (parts : ServerFirstParts) : List (List Char) → Except Error ServerFirstParts
  | [] => .ok parts
  | ('r':: '='::value)::fields => parseFields {parts with nonce := some (String.ofList value)} fields
  | ('s':: '='::value)::fields =>
    match p.decode (String.ofList value) with
    | .error e => .error (.sourceError ("postgres SCRAM salt is not valid base64: "++e))
    | .ok salt => parseFields {parts with salt := some salt} fields
  | ('i':: '='::value)::fields =>
    match fromStrRadix 10 (2^32) value with
    | .error e => .error (.sourceError ("postgres SCRAM iteration count '"++String.ofList value++
        "' is not a number: "++e))
    | .ok iterations => parseFields {parts with iterations := some iterations} fields
  | _::fields => parseFields parts fields

def finish (parts : ServerFirstParts) : Except Error ServerFirst :=
  match parts.iterations with
  | none => .error (.sourceError "postgres SCRAM server-first carried no iteration count")
  | some iterations =>
    if iterations = 0 then
      .error (.sourceError ("postgres SCRAM iteration count is zero, which would skip key "++ "derivation entirely"))
    else if maxScramIterations < iterations then
      .error (.sourceError ("postgres asked for "++toString iterations++" SCRAM iterations, above "++
        "the "++toString maxScramIterations++" this client will perform. The count is the server's "++
        "choice and the work is the client's, so an unbounded value is a denial of service the "++
        "server triggers for free. PostgreSQL's default is 4096; if this is deliberate hardening, "++
        "lower `scram_iterations` below the cap."))
    else
      match parts.nonce, parts.salt with
      | none, _ => .error (.sourceError "postgres SCRAM server-first carried no nonce")
      | some _, none => .error (.sourceError "postgres SCRAM server-first carried no salt")
      | some nonce, some salt => .ok ⟨nonce,salt,iterations⟩

def parse (message : String) : Except Error ServerFirst :=
  match parseFields p ⟨none,none,none⟩ (splitOn ',' message.toList) with
  | .error e => .error e
  | .ok parts => finish parts
end ServerFirst
/-- The messages both signatures are about. -/
def authMessage (clientFirstBare serverFirst nonce : String) : String :=
  clientFirstBare++","++serverFirst++","++("c="++p.encode (textBytes "n,,")++",r="++nonce)
section
variable (password clientFirstBare serverFirst : String) (parsed : ServerFirst)

def serverProof : Bytes :=
  let saltedPassword := hi p (textBytes password) parsed.salt parsed.iterations
  p.hmac (p.hmac saltedPassword (textBytes "Server Key"))
    (textBytes (authMessage p clientFirstBare serverFirst parsed.nonce))

def clientProof : Bytes :=
  let saltedPassword := hi p (textBytes password) parsed.salt parsed.iterations
  let clientKey := p.hmac saltedPassword (textBytes "Client Key")
  let clientSignature := p.hmac (p.sha256 clientKey)
    (textBytes (authMessage p clientFirstBare serverFirst parsed.nonce))
  List.zipWith (· ^^^ ·) clientKey clientSignature
end
namespace ScramExchange
/-- An exchange with the nonce bytes that were drawn, and the client-first message. -/
def start (password : String) (nonce : Option Bytes) : Except Error (ScramExchange × String) :=
  match nonce with
  | none => .error (.sourceError "failed to generate a SCRAM client nonce from the system CSPRNG")
  | some bytes =>
    let clientFirstBare := "n=,r="++p.encode bytes
    .ok (⟨clientFirstBare,password,none⟩,"n,,"++clientFirstBare)

def clientFinal (x : ScramExchange) (serverFirst : String) : Except Error (ScramExchange × String) :=
  match ServerFirst.parse p serverFirst with
  | .error e => .error e
  | .ok parsed =>
    match stripFront "n=,r=".toList x.clientFirstBare.toList with
    | none => .error (.sourceError "malformed SCRAM client-first state")
    | some clientNonce =>
      if !clientNonce.isPrefixOf parsed.nonce.toList then
        .error (.sourceError ("postgres SCRAM server nonce does not extend the client nonce; the "++
          "exchange may be replayed or tampered with"))
      else
        let signature := serverProof p x.password x.clientFirstBare serverFirst parsed
        .ok ({x with serverSignature := some signature},
          "c="++p.encode (textBytes "n,,")++",r="++parsed.nonce++",p="++
            p.encode (clientProof p x.password x.clientFirstBare serverFirst parsed))

def checkFields (expected : Bytes) : List (List Char) → Except Error Unit
  | [] => .error (.sourceError "postgres SCRAM server-final carried no signature field")
  | field::fields =>
    match stripFront "e=".toList field with
    | some reason => .error (.sourceError ("postgres rejected the SCRAM authentication: "++ String.ofList reason))
    | none =>
      match stripFront "v=".toList field with
      | none => checkFields expected fields
      | some encoded =>
        match p.decode (String.ofList encoded) with
        | .error e => .error (.sourceError ("postgres SCRAM server signature is not valid base64: "++e))
        | .ok actual =>
          if constantTimeEq actual expected then .ok ()
          else .error (.sourceError ("postgres SCRAM server signature did not verify; the server "++
            "does not know this password and the connection cannot be trusted"))

def verifyServerFinal (x : ScramExchange) (serverFinal : String) : Except Error Unit :=
  match x.serverSignature with
  | none => .error (.sourceError "postgres SCRAM server-final arrived before the client-final was sent")
  | some expected => checkFields p expected (splitOn ',' serverFinal.toList)
end ScramExchange
end
section
/-- A frame of the server. -/
structure BackendMessage where
  tag : UInt8
  payload : Bytes

/-- `tag::AUTHENTICATION`. -/
def authenticationTag : UInt8 := 82

/-- What the client writes during authentication, by the request it answers. -/
inductive Outgoing
  | cleartext (payload : Bytes)
  | md5 (payload : Bytes)
  | saslInitial (payload : Bytes)
  | saslResponse (payload : Bytes)

/-- The message carries the password in the clear or its MD5 form. -/
def Outgoing.isPassword : Outgoing → Bool
  | .cleartext _ | .md5 _ => true
  | _ => false

structure AuthConfig where
  user : String
  password : String
  /-- `TransportConfig::Plaintext`. -/
  plaintext : Bool

/-- The state of the loop, and what has been written to the socket. -/
structure AuthState where
  scram : Option ScramExchange
  sent : List Outgoing

/-- What one pass of the loop gets: the frame read, the nonce drawn and the outcome of its write. -/
structure AuthAnswer where
  message : Except Error BackendMessage
  nonce : Option Bytes
  write : Except Error Unit

/-- The requests by their code. -/
inductive AuthKind
  | ok | cleartextPassword | md5Password | sasl | saslContinue | saslFinal
  | other (code : ℤ)

def AuthKind.ofCode (code : ℤ) : AuthKind :=
  if code = 0 then .ok
  else if code = 3 then .cleartextPassword
  else if code = 5 then .md5Password
  else if code = 10 then .sasl
  else if code = 11 then .saslContinue
  else if code = 12 then .saslFinal
  else .other code

/-- A big-endian 32-bit integer off the front. -/
def readI32 : Bytes → Except Error (ℤ × Bytes)
  | a::b::c::d::rest =>
    let n := ((a.toNat*256+b.toNat)*256+c.toNat)*256+d.toNat
    .ok (if n < 2^31 then n else (n:ℤ)-2^32,rest)
  | _ => .error (.sourceError "truncated postgres message: expected a 4-byte integer")

def renderTag (tag : UInt8) : String :=
  if 0x21 ≤ tag ∧ tag ≤ 0x7e then "'"++String.ofList [Char.ofNat tag.toNat]++"'"
  else "0x"++String.ofList (Json.hexByte tag.toNat)

/-- The request of a frame, with the rest of its payload. -/
def BackendMessage.request (m : BackendMessage) : Except Error (AuthKind × Bytes) :=
  if m.tag ≠ authenticationTag then
    .error (.sourceError ("expected an authentication message from postgres, got tag "++ renderTag m.tag))
  else (readI32 m.payload).map fun (code,body) => (.ofCode code,body)

variable (p : ScramPrimitives) (config : AuthConfig) (s : AuthState)

/-- A frame written, which ends the loop if it fails. -/
def AuthState.write (message : Outgoing) (answer : Except Error Unit) : AuthState × Option (Except Error Unit) :=
  match answer with
  | .error e => (s,some (.error e))
  | .ok () => ({s with sent := s.sent++[message]},none)

def i32Bytes (n : ℕ) : Bytes := (leBytes 4 n).reverse
def AuthState.fail (e : Error) : AuthState × Option (Except Error Unit) := (s,some (.error e))

def AuthState.cleartext (write : Except Error Unit) : AuthState × Option (Except Error Unit) :=
  if config.plaintext then
    s.fail (.configError ("postgres requested cleartext password authentication over a plaintext "++
      "connection, which would put the password on the wire in the clear. Enable TLS on the "++
      "connector, or configure the server for scram-sha-256 (`password_encryption = "++
      "scram-sha-256`)."))
  else s.write (.cleartext (textBytes config.password++[0])) write
section
variable (body : Bytes)

def AuthState.md5 (write : Except Error Unit) : AuthState × Option (Except Error Unit) :=
  if body.length < 4 then
    s.fail (.sourceError "postgres MD5 authentication request carried no 4-byte salt")
  else
    s.write (.md5 (textBytes (md5PasswordResponse p config.user config.password (body.take 4))++[0])) write

def AuthState.sasl (nonce : Option Bytes) (write : Except Error Unit) : AuthState × Option (Except Error Unit) :=
  match selectSaslMechanism (parseSaslMechanisms p body) with
  | .error e => s.fail e
  | .ok mechanism =>
    match ScramExchange.start p config.password nonce with
    | .error e => s.fail e
    | .ok (exchange,clientFirst) =>
      let s := {s with scram := some exchange}
      if 2^31 ≤ (textBytes clientFirst).length then
        s.fail (.sourceError "SCRAM client-first message is too long")
      else
        s.write (.saslInitial (textBytes mechanism++[0]++i32Bytes (textBytes clientFirst).length++
          textBytes clientFirst)) write

def AuthState.saslContinue (write : Except Error Unit) : AuthState × Option (Except Error Unit) :=
  match s.scram, p.fromUtf8 body with
  | none, _ => s.fail (.sourceError "postgres sent a SASL continuation before any SASL exchange began")
  | some _, .error e => s.fail (.sourceError ("postgres SCRAM server-first is not valid UTF-8: "++e))
  | some exchange, .ok serverFirst =>
    match exchange.clientFinal p serverFirst with
    | .error e => s.fail e
    | .ok (exchange,clientFinal) =>
      {s with scram := some exchange}.write (.saslResponse (textBytes clientFinal)) write

def AuthState.saslFinal : AuthState × Option (Except Error Unit) :=
  match s.scram, p.fromUtf8 body with
  | none, _ => s.fail (.sourceError "postgres sent a SASL final message before any SASL exchange began")
  | some _, .error e => s.fail (.sourceError ("postgres SCRAM server-final is not valid UTF-8: "++e))
  | some exchange, .ok serverFinal =>
    match exchange.verifyServerFinal p serverFinal with
    | .error e => s.fail e
    | .ok () => (s,none)
end
def unsupportedMethod (code : ℤ) : Error :=
  .sourceError ("postgres requested authentication method "++toString code++", which rustcdc's "++
    "replication transport does not implement. Supported: scram-sha-256, md5, and "++
    "cleartext-over-TLS. Set PostgresSourceConfig::wal_transport = WalTransport::SqlPeek to "++
    "authenticate through tokio-postgres instead.")

/-- One pass of `authenticate`. -/
def AuthState.pass (a : AuthAnswer) : AuthState × Option (Except Error Unit) :=
  match a.message with
  | .error e => s.fail e
  | .ok message =>
    match message.request with
    | .error e => s.fail e
    | .ok (.ok,_) => (s,some (.ok ()))
    | .ok (.cleartextPassword,_) => s.cleartext config a.write
    | .ok (.md5Password,body) => s.md5 p config body a.write
    | .ok (.sasl,body) => s.sasl p config body a.nonce a.write
    | .ok (.saslContinue,body) => s.saslContinue p body a.write
    | .ok (.saslFinal,body) => s.saslFinal p body
    | .ok (.other code,_) => s.fail (unsupportedMethod code)

/-- `authenticate`, over the answers it gets; `none` while the server has not sent enough. -/
def authenticate (answers : List AuthAnswer) : Option (AuthState × Except Error Unit) :=
  Machine.loop (AuthState.pass p config) ⟨none,[]⟩ answers
end
end Rustcdc.Postgres
