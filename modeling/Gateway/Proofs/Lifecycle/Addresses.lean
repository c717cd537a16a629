import Gateway.Lifecycle.Listener
import Gateway.Proofs.Text.Address

/-! The addresses listeners are configured with. A host and a number are joined by a colon, whichever kind of
address the host is; only the short kind can be read back from that. -/
namespace Gateway

def IpAddress.isV4 : IpAddress → Bool
  | v4 _ => true
  | v6 _ => false

namespace SocketAddress
variable {number : UInt16} {cs : List Char}

lemma toList_addressText (host : String) :
    (Config.Listener.addressText host number).toList = host.toList ++ ':' :: Nat.toDigits 10 number.toNat := by
  simp [Config.Listener.addressText]

lemma readSocketNumber_text : readSocketNumber (':' :: Nat.toDigits 10 number.toNat) = some (number, []) := by
  have read : readNumber 10 none true 65536 (Nat.toDigits 10 number.toNat ++ []) = some (number.toNat, []) :=
    readNumber_toDigits (by decide) (by decide) number.toNat_lt (by simp) (by simp)
  rw [List.append_nil] at read
  simp [readSocketNumber, read]

lemma readShort_bracket : readShort ('[' :: cs) = none := by
  have stop : ∀ c ∈ ('[' :: cs).head?, digitValue? 10 c = none := by
    rintro c ⟨⟩
    decide
  rw [readShort, readV4, readOctet, readNumber_eq_none stop]
  rfl

lemma exists_text_v4 : ∀ octets : Vector UInt8 4, ∃ a b c d, octets = #v[a, b, c, d] ∧
    (IpAddress.v4 octets).text = IpAddress.octetsText [a, b, c, d]
  | ⟨⟨[a, b, c, d]⟩, _⟩ => ⟨a, b, c, d, rfl, rfl⟩

/-- Without brackets only the short kind is read, and then it is the address that was written. -/
theorem parse?_addressText (ip : IpAddress) (number : UInt16) :
    parse? (Config.Listener.addressText ip.text number) = if ip.isV4 then some ⟨ip, number, 0⟩ else none := by
  unfold parse?
  rw [toList_addressText]
  cases ip with
  | v4 octets =>
    obtain ⟨a, b, c, d, rfl, text⟩ := exists_text_v4 octets
    have ends : ∀ c ∈ (':' :: Nat.toDigits 10 number.toNat).head?, digitValue? 10 c = none := by
      rintro c ⟨⟩
      decide
    have octets := readV4_octetsText a b c d ends
    have read : readShort ((IpAddress.octetsText [a, b, c, d]).toList ++ ':' :: Nat.toDigits 10 number.toNat) =
        some (⟨.v4 #v[a, b, c, d], number, 0⟩, []) := by
      simp [readShort, octets, readSocketNumber_text]
    rw [text, read]
    rfl
  | v6 segments =>
    -- the first colon comes too early for one kind, and no bracket comes first for the other
    obtain ⟨digits, more, split, range⟩ := exists_digits segments.toList (Nat.toDigits 10 number.toNat)
    have short : readShort (digits ++ ':' :: more) = none := by
      rw [readShort, readV4_eq_none (fun c hc => (range c hc).1) (by rintro c ⟨⟩; decide)]
      rfl
    have long : readLong (digits ++ ':' :: more) = none := by
      rw [readLong, readChar_of_ne]
      · rfl
      · cases digits with
        | nil => exact fun head => nomatch head
        | cons d digits => exact fun head => (range d List.mem_cons_self).2 (Option.some.inj head)
    rw [IpAddress.text, split, short, long]
    rfl

/-- In brackets only the long kind is read, and then it is the address that was written. -/
theorem parse?_bracketed (ip : IpAddress) (number : UInt16) :
    parse? (Config.Listener.addressText ("[" ++ ip.text ++ "]") number) =
      if ip.isV4 then none else some ⟨ip, number, 0⟩ := by
  have split : (Config.Listener.addressText ("[" ++ ip.text ++ "]") number).toList =
      '[' :: (ip.text.toList ++ ']' :: ':' :: Nat.toDigits 10 number.toNat) := by
    simp [toList_addressText]
  unfold parse?
  rw [split, readShort_bracket]
  cases ip with
  | v4 octets =>
    obtain ⟨a, b, c, d, rfl, text⟩ := exists_text_v4 octets
    have long : readLong ('[' :: ((IpAddress.octetsText [a, b, c, d]).toList ++
        ']' :: ':' :: Nat.toDigits 10 number.toNat)) = none := by
      simp only [readLong, readChar_cons, Option.bind_eq_bind, Option.bind_some, readV6_octetsText,
        Option.bind_none]
    rw [text, long]
    rfl
  | v6 segments =>
    have noScope (r : List Char) : readScope (']' :: r) = none := rfl
    have long : readLong ('[' :: ((IpAddress.v6Text segments.toList).toList ++
        ']' :: ':' :: Nat.toDigits 10 number.toNat)) = some (⟨.v6 segments, number, 0⟩, []) := by
      simp only [readLong, readChar_cons, Option.bind_eq_bind, Option.bind_some, readV6_v6Text, noScope,
        Option.getD_none, readSocketNumber_text, Option.pure_def]
    rw [IpAddress.text, long]
    rfl

end SocketAddress

/-- The listener with one host and one number for both of its addresses. -/
def Config.Listener.on (l : Config.Listener) (host : String) (number : UInt16) : Config.Listener :=
  { l with httpHost := host, httpNumber := number, httpsHost := host, httpsNumber := number }

namespace Listener

/-- Both addresses of the listener are read as `a`. -/
def BothRead (l : Config.Listener) (a : SocketAddress) : Prop :=
  parseAddress l.httpAddress = .ok a ∧ parseAddress l.httpsAddress = .ok a

/-- Neither address of the listener can be read. -/
def NeitherRead (l : Config.Listener) : Prop :=
  parseAddress l.httpAddress = .error (.invalidAddress l.httpAddress) ∧
    parseAddress l.httpsAddress = .error (.invalidAddress l.httpsAddress)

/-- A host of the short kind is read back from both addresses of a listener, as it stands and not in brackets; a
host of the long kind is read back in brackets, and not as it stands. -/
theorem parseAddress_of_host (l : Config.Listener) (ip : IpAddress) (number : UInt16) :
    let plain := l.on ip.text number
    let bracketed := l.on ("[" ++ ip.text ++ "]") number
    if ip.isV4 then BothRead plain ⟨ip, number, 0⟩ ∧ NeitherRead bracketed
    else NeitherRead plain ∧ BothRead bracketed ⟨ip, number, 0⟩ := by
  have plain := SocketAddress.parse?_addressText ip number
  have bracketed := SocketAddress.parse?_bracketed ip number
  have ok {host : String}
      (h : SocketAddress.parse? (Config.Listener.addressText host number) = some ⟨ip, number, 0⟩) :
      BothRead (l.on host number) ⟨ip, number, 0⟩ := by
    have read : parseAddress (Config.Listener.addressText host number) = .ok ⟨ip, number, 0⟩ := by
      unfold parseAddress
      rw [h]
    exact ⟨read, read⟩
  have error {host : String} (h : SocketAddress.parse? (Config.Listener.addressText host number) = none) :
      NeitherRead (l.on host number) := by
    have refused : parseAddress (Config.Listener.addressText host number) =
        .error (.invalidAddress (Config.Listener.addressText host number)) := by
      unfold parseAddress
      rw [h]
    exact ⟨refused, refused⟩
  cases kind : ip.isV4
  · rw [kind] at plain bracketed
    exact ⟨error plain, ok bracketed⟩
  · rw [kind] at plain bracketed
    exact ⟨ok plain, error bracketed⟩

/-- The loopback address is a host with which no listener can be set up, unless it stands in brackets. -/
theorem parseAddress_of_loopback :
    parseAddress (Config.Listener.httpAddress { httpHost := "::1", httpNumber := 8080 }) =
        .error (.invalidAddress "::1:8080") ∧
      parseAddress (Config.Listener.httpAddress { httpHost := "[::1]", httpNumber := 8080 }) =
        .ok ⟨.v6 #v[0, 0, 0, 0, 0, 0, 0, 1], 8080, 0⟩ := by
  have one : IpAddress.segmentText 1 = "1" := rfl
  have host : (IpAddress.v6 #v[0, 0, 0, 0, 0, 0, 0, 1]).text = "::1" := by
    simp [IpAddress.text, IpAddress.v6Text, IpAddress.longestZeros, IpAddress.zeroRun, IpAddress.segmentsText, one]
  have read := parseAddress_of_host {} (.v6 #v[0, 0, 0, 0, 0, 0, 0, 1]) 8080
  rw [host] at read
  exact ⟨read.1.1, read.2.1⟩

end Listener
end Gateway
