import Gateway.Session.Uuid

/-! Session ids are random identifiers that carry the options of their session in the low bits
of byte eight, next to the variant. -/
namespace Gateway

/-- What a session id says about its session. -/
structure SessionOptions where
  causallyConsistent : Bool := false
  deriving DecidableEq, Repr

/-- A random identifier used as session id. -/
structure SessionId where
  uuid : Uuid
  random : uuid.IsRandom

inductive SessionIdError where
  | malformed (text : String)
  | notRandom (uuid : Uuid)
  deriving DecidableEq

def SessionIdError.message : SessionIdError → String
  | malformed text => "invalid session id: " ++ text
  | notRandom uuid => "session id " ++ uuid.text ++ " is not a random (version 4) UUID"

namespace SessionId

/-- Mark of causal consistency. -/
def consistencyBit : UInt8 := 1

def withOptions (b : UInt8) (options : SessionOptions) : UInt8 :=
  (b &&& ~~~consistencyBit) ||| (if options.causallyConsistent then consistencyBit else 0)

/-- The identifier of some random bytes with `options` written into it. -/
def uuidOfRandom (random : Vector UInt8 16) (options : SessionOptions) : Uuid :=
  let u := Uuid.ofRandom random
  u.setVariantByte (withOptions u.variantByte options)

/-- Options leave the variant as it is. -/
theorem withOptions_and_variant (b : UInt8) (options : SessionOptions) :
    withOptions b options &&& 0xC0 = b &&& 0xC0 := by
  have each : ∀ b : UInt8, ∀ c : Bool, withOptions b ⟨c⟩ &&& 0xC0 = b &&& 0xC0 :=
    Bytes.forall_byte (by decide +kernel)
  exact each b options.causallyConsistent

theorem isRandom_uuidOfRandom (random : Vector UInt8 16) (options : SessionOptions) :
    (uuidOfRandom random options).IsRandom := by
  have drawn := Uuid.isRandom_ofRandom random
  simpa [uuidOfRandom, Uuid.IsRandom, Uuid.isStandardVariant, withOptions_and_variant] using drawn

/-- A session id of some random bytes that carries `options`. -/
def ofRandom (random : Vector UInt8 16) (options : SessionOptions) : SessionId :=
  ⟨uuidOfRandom random options, isRandom_uuidOfRandom random options⟩

def options (id : SessionId) : SessionOptions :=
  ⟨id.uuid.variantByte &&& consistencyBit != 0⟩

def ofUuid (u : Uuid) : Except SessionIdError SessionId :=
  if h : u.IsRandom then .ok ⟨u, h⟩ else .error (.notRandom u)

def parse (s : String) : Except SessionIdError SessionId :=
  match Uuid.parse s with
  | none => .error (.malformed s)
  | some u => ofUuid u

def text (id : SessionId) : String := id.uuid.text

end SessionId
end Gateway
