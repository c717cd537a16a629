import Gateway.Pipeline.Basic

/-! What a backend is told about the client. Client credentials stay behind; identity headers
come from the gateway alone. -/
namespace Gateway.Forwarding

def forHeader : String := "x-forwarded-for"
def hostHeader : String := "x-forwarded-host"
def protoHeader : String := "x-forwarded-proto"
def accountIdHeader : String := "x-forwarded-account-id"
def accountRolesHeader : String := "x-forwarded-account-roles"

/-- The chain of clients with one more at its end. -/
def chainText (h : Headers) (ip : String) : String :=
  match h.firstText? forHeader with
  | some earlier => earlier ++ ", " ++ ip
  | none => ip

def withClient (h : Headers) : Option SocketAddress → Headers
  | some client => h.insertText? forHeader (chainText h client.ip.text)
  | none => h

def withHost (h : Headers) : Option Bytes → Headers
  | some host => h.insertIfAbsent hostHeader host
  | none => h

def withProto (h : Headers) (proto : String) : Headers :=
  match headerValue? proto with
  | some v => h.insertIfAbsent protoHeader v
  | none => h

def withAccount (h : Headers) : Option Account → Headers
  | some a => (h.insertText? accountIdHeader a.id).insertText? accountRolesHeader a.rolesText
  | none => h

/-- The headers with everything the gateway says about the request. -/
def forwarded (x : Exchange) : Headers :=
  let h := (x.headers.remove accountIdHeader).remove accountRolesHeader
  withAccount
    (withProto (withHost (withClient h x.client) (x.headers.first? "host"))
      (x.uri.scheme.getD "http"))
    x.account

def stage : Stage where
  name := "forwarded-headers"
  handle := do
    Handler.change fun x => { x with headers := forwarded x }
    pure .proceed

/-- Keeps the client's credentials from backends. -/
def credentialsStage : Stage where
  name := "auth-headers-remover"
  handle := do
    Handler.changeHeaders (·.remove "authorization")
    pure .proceed

end Gateway.Forwarding
