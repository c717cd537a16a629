import Gateway.Proofs.Pipeline.Forwarding
import Gateway.Proofs.Text.Listing

/-! The list of addresses that a request has come through. The gateway writes it on from the first
line, and the lines after that one are given up. -/
namespace Gateway.Forwarding
variable {x y : Exchange} {h : Headers} {client : SocketAddress} {ip : String} {t : Trace}
  {r : Except Failure Flow}

/-- The lines of the list that can be read. -/
def lines (h : Headers) : List String := (h.values forHeader).filterMap Bytes.visibleText?

/-- All lines as one list. -/
def chain (h : Headers) : String := ", ".intercalate (lines h)

/-- The addresses on all lines. -/
def hops (h : Headers) : List String := (lines h).flatMap elements

lemma elements_address (address : IpAddress) : elements address.text = [address.text] :=
  elements_eq_singleton (address.forall_mem_text (by decide) (by decide) (by decide))

/-- Of the lines only the first one is gone on with. -/
lemma chainText_eq_intercalate (ip : String)
    (textual : ∀ v ∈ h.values forHeader, (Bytes.visibleText? v).isSome = true) :
    chainText h ip = ", ".intercalate ((lines h).take 1 ++ [ip]) := by
  rw [chainText, Headers.firstText?, Headers.first?, lines]
  cases values : h.values forHeader with
  | nil => simp
  | cons v rest =>
    rw [values] at textual
    obtain ⟨first, read⟩ := Option.isSome_iff_exists.mp (textual v List.mem_cons_self)
    simp [read, String.intercalate_cons_cons]

lemma visibleText?_chainText (address : IpAddress) :
    Bytes.visibleText? (Bytes.ofText (chainText h address.text)) = some (chainText h address.text) := by
  have last : Bytes.isVisible (Bytes.ofText address.text) = true := address.isPrintable_text.isVisible
  refine Bytes.visibleText?_eq_some_iff.mpr ⟨?_, rfl⟩
  unfold chainText
  split
  · next earlier found =>
    obtain ⟨_, -, read⟩ := Option.bind_eq_some_iff.mp found
    obtain ⟨visible, rfl⟩ := Bytes.visibleText?_eq_some_iff.mp read
    rw [Bytes.ofText_append, Bytes.ofText_append, Bytes.isVisible_append, Bytes.isVisible_append,
      visible, last]
    rfl
  · exact last

lemma lines_forwarded (known : x.client = some client) :
    lines (forwarded x) = [chainText x.headers client.ip.text] := by
  rw [lines, values_forwarded_of_tells (.client known), List.filterMap_cons,
    visibleText?_chainText]
  rfl

lemma runs_stage_iff : stage.handle.Runs x t r y ↔
    t = [] ∧ r = .ok .proceed ∧ y = { x with headers := forwarded x } := by
  have quiet : Exchange.dropped x { x with headers := forwarded x } = [] :=
    Exchange.dropped_eq_nil rfl
  change Handler.Runs (do Handler.change fun x => { x with headers := forwarded x }; pure .proceed)
    x t r y ↔ _
  rw [Handler.runs_bind_iff]
  constructor
  · rintro (⟨u, v, _, z, rfl, hu, hv⟩ | ⟨e, rfl, he⟩)
    · obtain ⟨-, rfl, rfl⟩ := Handler.runs_change_iff.mp hu
      obtain ⟨rfl, rfl, rfl⟩ := Handler.runs_pure_iff.mp hv
      rw [quiet]
      exact ⟨rfl, rfl, rfl⟩
    · cases (Handler.runs_change_iff.mp he).1
  · rintro ⟨rfl, rfl, rfl⟩
    exact .inl ⟨[], [], (), _, rfl, Handler.runs_change_iff.mpr ⟨rfl, by rw [quiet]; rfl, rfl⟩,
      Handler.runs_pure_iff.mpr ⟨rfl, rfl, rfl⟩⟩

/-- Every line after the first one has something that is lost. -/
lemma flatMap_take_append_iff {lines : List String} : (lines.take 1).flatMap elements ++ [ip] =
    lines.flatMap elements ++ [ip] ↔ lines.length ≤ 1 := by
  have parts : lines.flatMap elements =
      (lines.take 1).flatMap elements ++ (lines.drop 1).flatMap elements := by
    rw [← List.flatMap_append, List.take_append_drop]
  have nothing : (lines.drop 1).flatMap elements = [] ↔ lines.drop 1 = [] := by
    rw [List.flatMap_eq_nil_iff, List.eq_nil_iff_forall_not_mem]
    exact forall₂_congr fun text _ => iff_false_intro (elements_ne_nil text)
  rw [List.append_cancel_right_eq, parts, List.self_eq_append_right, nothing, List.drop_eq_nil_iff]

/-- With a client that is known, the stage goes on and leaves one line: the first line there was, with
the client's address at its end. It has every address of the request, and is the list of all lines
with the client added, for requests with one line at most. -/
theorem stage_hops (known : x.client = some client)
    (textual : ∀ v ∈ x.headers.values forHeader, (Bytes.visibleText? v).isSome = true) :
    ∃ y : Exchange, (∀ t r z, stage.handle.Runs x t r z ↔ t = [] ∧ r = .ok .proceed ∧ z = y) ∧
      y.headers.values forHeader = [Bytes.ofText (chain y.headers)] ∧
      chain y.headers = ", ".intercalate ((lines x.headers).take 1 ++ [client.ip.text]) ∧
      hops y.headers = ((lines x.headers).take 1).flatMap elements ++ [client.ip.text] ∧
      (hops y.headers = hops x.headers ++ [client.ip.text] ↔ (lines x.headers).length ≤ 1) ∧
      (chain y.headers = ", ".intercalate (lines x.headers ++ [client.ip.text]) ↔
        (lines x.headers).length ≤ 1) := by
  have only := lines_forwarded known
  have text := chainText_eq_intercalate client.ip.text textual
  have joined : chain (forwarded x) =
      ", ".intercalate ((lines x.headers).take 1 ++ [client.ip.text]) := by
    rw [chain, only, String.intercalate_singleton, text]
  have each : hops (forwarded x) =
      ((lines x.headers).take 1).flatMap elements ++ [client.ip.text] := by
    rw [hops, only, List.flatMap_singleton, text, elements_intercalate (by simp), List.flatMap_append,
      List.flatMap_singleton, elements_address]
  have all : (lines x.headers ++ [client.ip.text]).flatMap elements =
      hops x.headers ++ [client.ip.text] := by
    rw [List.flatMap_append, List.flatMap_singleton, elements_address, hops]
  have kept : hops (forwarded x) = hops x.headers ++ [client.ip.text] ↔
      (lines x.headers).length ≤ 1 := by rw [each, hops, flatMap_take_append_iff]
  refine ⟨{ x with headers := forwarded x }, fun t r z => runs_stage_iff, ?_, joined, each, kept, ?_⟩
  · rw [values_forwarded_of_tells (.client known), chain, only, String.intercalate_singleton]
  · constructor
    · intro same
      -- Two texts that are equal have the same addresses, and those are counted already.
      rw [← kept, ← all, ← elements_intercalate (by simp), ← same, chain, only,
        String.intercalate_singleton, hops, only, List.flatMap_singleton]
    · intro few
      rw [joined, List.take_of_length_le few]

/-- A second proxy that put its client on a line of its own is not told of. -/
theorem stage_hops_two_lines :
    let first := Bytes.ofText "10.0.0.1"
    let second := Bytes.ofText "10.0.0.2"
    let client : SocketAddress := ⟨.v4 #v[10, 0, 0, 9], 4000, 0⟩
    let headers : Headers := ⟨[(forHeader, first), (forHeader, second)]⟩
    let x : Exchange := .ofRequest { headers, client := some client } {}
    hops x.headers = ["10.0.0.1", "10.0.0.2"] ∧ chain x.headers = "10.0.0.1, 10.0.0.2" ∧
      ∃ y : Exchange, stage.handle.Runs x [] (.ok .proceed) y ∧
        hops y.headers = ["10.0.0.1", "10.0.0.9"] ∧ chain y.headers = "10.0.0.1, 10.0.0.9" ∧
        chain y.headers ≠ chain x.headers ++ ", " ++ client.ip.text := by
  intro first second client headers x
  have textual : ∀ v ∈ x.headers.values forHeader, (Bytes.visibleText? v).isSome = true := by
    decide +kernel
  have came : hops x.headers = ["10.0.0.1", "10.0.0.2"] ∧ chain x.headers = "10.0.0.1, 10.0.0.2" := by
    decide +kernel
  have known : x.client = some client := rfl
  obtain ⟨y, runs, -, joined, each, -, -⟩ := stage_hops known textual
  have one : ((lines x.headers).take 1).flatMap elements ++ [client.ip.text] =
      ["10.0.0.1", "10.0.0.9"] := by decide +kernel
  have text : ", ".intercalate ((lines x.headers).take 1 ++ [client.ip.text]) =
      "10.0.0.1, 10.0.0.9" := by decide +kernel
  rw [one] at each
  rw [text] at joined
  refine ⟨came.1, came.2, y, (runs ..).mpr ⟨rfl, rfl, rfl⟩, each, joined, ?_⟩
  rw [joined, came.2]
  decide +kernel

end Gateway.Forwarding
