import Mathlib.Data.List.Basic
import Gateway.Pipeline.Forwarding
import Gateway.Proofs.Http.Headers
import Gateway.Proofs.Pipeline.Passage

/-! What the gateway writes for backends. It makes its own statements about the account and goes on
with the client's list of addresses. -/
namespace Gateway.Forwarding
variable {x y : Exchange} {h : Headers} {name text : String} {t : Trace}

/-- The headers about an account, each with its text. -/
def identity : List (String × (Account → String)) :=
  [(accountIdHeader, Account.id), (accountRolesHeader, Account.rolesText)]

lemma name_of_identity {text : Account → String} (about : (name, text) ∈ identity) :
    name = accountIdHeader ∨ name = accountRolesHeader := by
  rcases List.mem_pair.mp about with e | e
  · exact .inl (Prod.mk.inj e).1
  · exact .inr (Prod.mk.inj e).1

/-- What the gateway tells about an exchange under a header name. A text that makes no header value
is not told. -/
inductive Tells (x : Exchange) : String → String → Prop where
  | client {client : SocketAddress} (known : x.client = some client) :
      Tells x forHeader (chainText x.headers client.ip.text)
  | account {account : Account} {name : String} {text : Account → String}
      (known : x.account = some account) (about : (name, text) ∈ identity)
      (valid : isHeaderValue (Bytes.ofText (text account)) = true) : Tells x name (text account)

lemma isHeaderValue_chainText (h : Headers) (ip : IpAddress) :
    isHeaderValue (Bytes.ofText (chainText h ip.text)) = true := by
  have last : isHeaderValue (Bytes.ofText ip.text) = true := ip.isPrintable_text.isHeaderValue
  unfold chainText
  split
  · next earlier found =>
    obtain ⟨b, -, visible⟩ := Option.bind_eq_some_iff.mp found
    rw [Bytes.ofText_append, Bytes.ofText_append, isHeaderValue_append, isHeaderValue_append,
      isHeaderValue_of_visibleText? visible, last]
    rfl
  · exact last

lemma chainText_congr {g : Headers} (same : g.values forHeader = h.values forHeader) (ip : String) :
    chainText g ip = chainText h ip := by
  rw [chainText, chainText, Headers.firstText?, Headers.firstText?, Headers.first?, Headers.first?, same]

lemma values_withHost {host : Option Bytes} (ne : name ≠ hostHeader) :
    (withHost h host).values name = h.values name := by
  unfold withHost
  split
  · exact Headers.values_insertIfAbsent_of_ne ne.symm
  · rfl

lemma values_withProto (ne : name ≠ protoHeader) :
    (withProto h text).values name = h.values name := by
  unfold withProto
  split
  · exact Headers.values_insertIfAbsent_of_ne ne.symm
  · rfl

lemma values_withClient {client : Option SocketAddress} (ne : name ≠ forHeader) :
    (withClient h client).values name = h.values name := by
  unfold withClient
  split
  · exact Headers.values_insertText?.trans (if_neg fun both => ne both.1.symm)
  · rfl

/-- The account's headers are written over nothing. -/
lemma values_withAccount {account : Option Account} {text : Account → String}
    (about : (name, text) ∈ identity) (nothing : h.values name = []) :
    (withAccount h account).values name = match account with
      | some a =>
        if isHeaderValue (Bytes.ofText (text a)) = true then [Bytes.ofText (text a)] else []
      | none => [] := by
  cases account with
  | none => exact nothing
  | some a =>
    rcases List.mem_pair.mp about with e | e
    · obtain ⟨rfl, rfl⟩ := Prod.mk.inj e
      have ne : accountRolesHeader ≠ accountIdHeader := by decide
      rw [withAccount, Headers.values_insertText?, if_neg fun both => ne both.1,
        Headers.values_insertText?, nothing]
      simp only [true_and]
    · obtain ⟨rfl, rfl⟩ := Prod.mk.inj e
      have ne : accountIdHeader ≠ accountRolesHeader := by decide
      have still : (h.insertText? accountIdHeader a.id).values accountRolesHeader = [] := by
        rw [Headers.values_insertText?, if_neg fun both => ne both.1, nothing]
      rw [withAccount, Headers.values_insertText?, still]
      simp only [true_and]

lemma values_withAccount_of_ne {account : Option Account} (ne_id : name ≠ accountIdHeader)
    (ne_roles : name ≠ accountRolesHeader) : (withAccount h account).values name = h.values name := by
  unfold withAccount
  split
  · rw [Headers.values_insertText?, if_neg fun both => ne_roles both.1.symm,
      Headers.values_insertText?, if_neg fun both => ne_id both.1.symm]
  · rfl

/-- The names that the gateway writes. -/
def ownNames : List String :=
  [forHeader, hostHeader, protoHeader, accountIdHeader, accountRolesHeader]

/-- Other headers go on as they are. -/
theorem values_forwarded_of_notMem (other : name ∉ ownNames) :
    (forwarded x).values name = x.headers.values name := by
  simp only [ownNames, List.mem_cons, List.not_mem_nil, or_false, not_or] at other
  obtain ⟨ne_for, ne_host, ne_proto, ne_id, ne_roles⟩ := other
  rw [forwarded, values_withAccount_of_ne ne_id ne_roles, values_withProto ne_proto,
    values_withHost ne_host, values_withClient ne_for, Headers.values_remove_of_ne _ (Ne.symm ne_roles),
    Headers.values_remove_of_ne _ (Ne.symm ne_id)]

/-- About the account only the gateway is believed. -/
theorem values_forwarded_identity {text : Account → String} (about : (name, text) ∈ identity) :
    (forwarded x).values name = match x.account with
      | some a =>
        if isHeaderValue (Bytes.ofText (text a)) = true then [Bytes.ofText (text a)] else []
      | none => [] := by
  have names := name_of_identity about
  have removed : ((x.headers.remove accountIdHeader).remove accountRolesHeader).values name = [] := by
    rcases names with rfl | rfl
    · rw [Headers.values_remove_of_ne _ (by decide), Headers.values_remove_self]
    · exact Headers.values_remove_self ..
  have ne : name ≠ protoHeader ∧ name ≠ hostHeader ∧ name ≠ forHeader := by
    rcases names with rfl | rfl <;> decide
  refine values_withAccount about ?_
  rw [values_withProto ne.1, values_withHost ne.2.1, values_withClient ne.2.2, removed]

theorem values_forwarded_of_tells (told : Tells x name text) :
    (forwarded x).values name = [Bytes.ofText text] := by
  cases told with
  | account known about valid =>
    rw [values_forwarded_identity about, known]
    exact if_pos valid
  | @client c known =>
    have same : ((x.headers.remove accountIdHeader).remove accountRolesHeader).values forHeader =
        x.headers.values forHeader := by
      rw [Headers.values_remove_of_ne _ (by decide), Headers.values_remove_of_ne _ (by decide)]
    rw [forwarded, values_withAccount_of_ne (by decide) (by decide), values_withProto (by decide),
      values_withHost (by decide), known, withClient, Headers.values_insertText?,
      if_pos ⟨rfl, isHeaderValue_chainText _ c.ip⟩, chainText_congr same]

/-- The stage always proceeds, with nothing but the headers changed. -/
lemma runs_stage_ok {flow : Flow} (h : stage.handle.Runs x t (.ok flow) y) :
    y = { x with headers := forwarded x } := by
  obtain ⟨u, v, _, z, -, hu, hv⟩ := Handler.runs_bind_ok h
  obtain ⟨-, -, rfl⟩ := Handler.runs_pure_iff.mp hv
  exact (Handler.runs_change_iff.mp hu).2.2

lemma runs_credentialsStage_ok {flow : Flow} (h : credentialsStage.handle.Runs x t (.ok flow) y) :
    y = { x with headers := x.headers.remove "authorization" } := by
  obtain ⟨u, v, _, z, -, hu, hv⟩ := Handler.runs_bind_ok h
  obtain ⟨-, -, rfl⟩ := Handler.runs_pure_iff.mp hv
  exact (Handler.runs_change_iff.mp hu).2.2

end Gateway.Forwarding
