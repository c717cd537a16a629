import Gateway.Config.Schema
import Gateway.Site.FileTree
import Gateway.Tls.Der
import Gateway.Tls.Pem

/-! The certificate chain and the private key of the encrypted listener. -/
namespace Gateway

inductive TlsError where
  | unreadable (path : String) (e : FileError)
  | noCertificate (path : String)
  | noPrivateKey (path : String)
  /-- The key is not that of the certificate, or of no known kind. -/
  | refused
  deriving DecidableEq, Repr

def TlsError.message : TlsError → String
  | unreadable path _ => "cannot read " ++ path
  | noCertificate path => "no certificate found in " ++ path
  | noPrivateKey path => "no private key found in " ++ path
  | refused => "invalid tls configuration"

namespace Tls

def certificateLabel : String := "CERTIFICATE"

def keyLabels : List String := ["PRIVATE KEY", "RSA PRIVATE KEY", "EC PRIVATE KEY"]

def Section.isCertificate (s : Section) : Bool := s.label = Bytes.ofText certificateLabel

def Section.isKey (s : Section) : Bool := (keyLabels.map Bytes.ofText).contains s.label

/-- The certificates of a file, all of which has to be readable. -/
def certificates (files : FileTree) (path : String) : Except TlsError (List Bytes) :=
  match files.read path with
  | .error e => .error (.unreadable path e)
  | .ok file =>
    match (sections file).mapM id with
    | .error _ => .error (.unreadable path .invalidData)
    | .ok found =>
      match (found.filter Section.isCertificate).map (·.content) with
      | [] => .error (.noCertificate path)
      | chain => .ok chain

/-- The first private key among sections. A fault after it does not matter. -/
def firstKey? : List (Except PemError Section) → Except PemError (Option Bytes)
  | [] => .ok none
  | .error e :: _ => .error e
  | .ok s :: rest => if s.isKey then .ok (some s.content) else firstKey? rest

def privateKey (files : FileTree) (path : String) : Except TlsError Bytes :=
  match files.read path with
  | .error e => .error (.unreadable path e)
  | .ok file =>
    match firstKey? (sections file) with
    | .error _ => .error (.unreadable path .invalidData)
    | .ok none => .error (.noPrivateKey path)
    | .ok (some key) => .ok key

/-- Check that there are a certificate and a key, whatever they hold. -/
def checkMaterial (files : FileTree) (certPath keyPath : String) : Except TlsError Unit := do
  let _ ← certificates files certPath
  let _ ← privateKey files keyPath

/-- All private keys of a file. -/
def keysIn (files : FileTree) (path : String) : List Bytes :=
  match files.read path with
  | .error _ => []
  | .ok file => (sections file).filterMap fun s =>
    match s with
    | .ok s => if s.isKey then some s.content else none
    | .error _ => none

/-- Check that the one key in the file belongs to the first certificate. -/
def load (files : FileTree) (t : Config.Tls) : Except TlsError Unit := do
  checkMaterial files t.certPath t.keyPath
  let chain ← certificates files t.certPath
  match chain, keysIn files t.keyPath with
  | certificate :: _, [key] => if isPair certificate key then .ok () else .error .refused
  | _, _ => .error .refused

end Tls
end Gateway
