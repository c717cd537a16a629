import Gateway.Proofs.Exchange.Edits
import Gateway.Proofs.Pipeline.Content

/-! The content of a request in the hands of those who use it. It is read, given up or taken, with
anything else done to the exchange in between; once it is gone, nothing brings it back. -/
namespace Gateway

/-- A use of the content of an exchange, with what came of it. -/
inductive ContentUse where
  /-- Read, with the size that was declared by then. -/
  | read (declared : Option ℕ) (outcome : Except Failure Unit)
  /-- Given up, if it was held in memory. -/
  | release (held : Bool)
  | take (body : Body)

namespace ContentUse

/-- Content that is released stays so, and this use has nothing to show for it. -/
def Idle : ContentUse → Prop
  | read _ outcome => outcome = .ok ()
  | release held => held = false
  | take body => body = .empty

/-- The use leaves no content: it was taken, given up, or lost in a failed reading. -/
def GivesUp : ContentUse → Prop
  | read _ outcome => outcome ≠ .ok ()
  | release held => held = true
  | take _ => True

/-- A body is handed over. -/
def handsOver : ContentUse → Bool
  | take body => body ≠ .empty
  | _ => false

end ContentUse

namespace Exchange
variable {x y m n : Exchange} {u : ContentUse} {us before after : List ContentUse} {body : Body}
  {limits : ContentLimits}

/-- One use of the content. -/
inductive Use : Exchange → ContentUse → Exchange → Prop where
  | read (x : Exchange) : Use x (.read x.declaredSize x.readContent.2) x.readContent.1
  | release (x : Exchange) : Use x (.release x.isContentAvailable) x.releaseContent
  | take (x : Exchange) : Use x (.take x.takeBody.2) x.takeBody.1

/-- Some uses of the content, one after another. In between the exchange may be changed as long as its
content and its limits are left alone. -/
inductive Uses : Exchange → List ContentUse → Exchange → Prop where
  | nil {x y : Exchange} (beside : y.hold = x.hold) : Uses x [] y
  | cons {x m n y : Exchange} {u : ContentUse} {us : List ContentUse} (beside : m.hold = x.hold)
      (use : Use m u n) (rest : Uses n us y) : Uses x (u :: us) y

/-- Whatever an exchange lets others do to it is a use of its content, or leaves it alone. -/
theorem Offers.use_or_beside (h : x.Offers y) : (∃ u, x.Use u y) ∨ y.hold = x.hold := by
  cases h with
  | edit h =>
    cases h with
    | read => exact .inl ⟨_, .read x⟩
    | released => exact .inl ⟨_, .release x⟩
    | taken => exact .inl ⟨_, .take x⟩
    | rebuilt h => exact .inr (hold_rebuildQuery h)
    | _ => exact .inr rfl
  | _ => exact .inr rfl

lemma Uses.beside_left (h : m.Uses us y) (same : m.hold = x.hold) : x.Uses us y := by
  cases h with
  | nil beside => exact .nil (beside.trans same)
  | cons beside use rest => exact .cons (beside.trans same) use rest

/-- Everything that is done to an exchange amounts to some uses of its content. -/
theorem exists_uses_of_offers (way : Relation.ReflTransGen Offers x y) : ∃ us, x.Uses us y := by
  induction way using Relation.ReflTransGen.head_induction_on with
  | refl => exact ⟨[], .nil rfl⟩
  | head step _ ih =>
    obtain ⟨us, rest⟩ := ih
    rcases step.use_or_beside with ⟨u, use⟩ | same
    · exact ⟨u :: us, .cons rfl use rest⟩
    · exact ⟨us, rest.beside_left same⟩

lemma Uses.split (h : x.Uses (before ++ after) y) : ∃ m, x.Uses before m ∧ m.Uses after y := by
  induction before generalizing x with
  | nil => exact ⟨x, .nil rfl, h⟩
  | cons u before ih =>
    cases h with
    | cons beside use rest =>
      obtain ⟨m, first, last⟩ := ih rest
      exact ⟨m, .cons beside use first, last⟩

lemma content_of_hold (same : m.hold = x.hold) : m.content = x.content := congrArg Prod.fst same

section Step

/-! What one use makes of content that is pending, held in memory as a whole, or gone. -/

/-- A reading holds the body or loses it, and there is nothing to give up yet. -/
lemma Use.of_pending (pending : m.content = .pending body) : m.Use u n →
    match u with
    | .read declared outcome =>
      match body.refusal? m.limits declared with
      | none => outcome = .ok () ∧ n.HasWhole m.limits body
      | some f => outcome = .error f ∧ n.content = .released
    | .release held => held = false ∧ n.hold = m.hold
    | .take b => b = body ∧ n.content = .released := by
  intro h
  cases h with
  | read =>
    have read := readContent_of_pending pending
    cases refused : body.refusal? m.limits m.declaredSize with
    | none =>
      rw [refused] at read
      simpa only [refused] using read
    | some f =>
      rw [refused] at read
      simp only [refused, read, and_self]
  | release => simp [isContentAvailable, releaseContent, pending]
  | take => simp [takeBody, pending]

/-- Whatever is done to content in memory, it is gone. Only one who takes it has it. -/
lemma Use.of_whole (whole : m.HasWhole limits body) : m.Use u n → n.content = .released ∧
    match u with
    | .read _ outcome => outcome = .ok ()
    | .release held => held = true
    | .take b => b.read = .ok body.bytes := by
  intro h
  obtain ⟨c, held, bytes⟩ : ∃ c, m.content = .buffered c ∧ c.toBytes = body.bytes := by
    have content := whole.content
    unfold content? at content
    split at content
    · next c held => exact ⟨c, held, Option.some.inj content⟩
    · cases content
  cases h with
  | read => simp [readContent, held]
  | release => simp [isContentAvailable, releaseContent, held]
  | take =>
    refine ⟨rfl, ?_⟩
    simp only [takeBody, held]
    exact congrArg _ bytes

lemma Use.of_released (h : m.Use u n) (gone : m.content = .released) : n.content = .released ∧ u.Idle := by
  cases h <;> simp [readContent, releaseContent, isContentAvailable, takeBody, gone, ContentUse.Idle]

lemma Use.released_of_givesUp (h : m.Use u n) (gives : u.GivesUp) : n.content = .released := by
  cases h with
  | read =>
    cases content : m.content with
    | pending body =>
      have read := readContent_of_pending content
      split at read
      · exact absurd read.1 gives
      · rw [read]
    | _ => simp [readContent, content]
  | release =>
    cases content : m.content with
    | buffered c => simp [releaseContent, content]
    | _ => simp [ContentUse.GivesUp, isContentAvailable, content] at gives
  | take => rfl

end Step

section Run

/-! Runs of uses, from each of these states. -/

lemma Uses.of_released (h : x.Uses us y) (gone : x.content = .released) :
    y.content = .released ∧ ∀ u ∈ us, u.Idle := by
  induction h with
  | nil beside => exact ⟨(content_of_hold beside).trans gone, List.forall_mem_nil _⟩
  | cons beside use _ ih =>
    obtain ⟨after, idle⟩ := use.of_released ((content_of_hold beside).trans gone)
    obtain ⟨last, others⟩ := ih after
    exact ⟨last, List.forall_mem_cons.mpr ⟨idle, others⟩⟩

/-- Nothing comes back of content that a use gave up. -/
lemma Uses.of_givesUp (h : x.Uses (before ++ u :: after) y) (gives : u.GivesUp) :
    y.content = .released ∧ ∀ v ∈ after, v.Idle := by
  obtain ⟨m, -, rest⟩ := h.split
  cases rest with
  | cons _ use rest => exact rest.of_released (use.released_of_givesUp gives)

/-- Content that is pending cannot be given up before it is read or taken. -/
lemma Uses.of_releases (h : x.Uses us y) (pending : x.content = .pending body)
    (only : ∀ u ∈ us, ∃ held, u = .release held) : y.hold = x.hold := by
  induction h with
  | nil beside => exact beside
  | cons beside use _ ih =>
    obtain ⟨⟨held, rfl⟩, others⟩ := List.forall_mem_cons.mp only
    obtain ⟨-, kept⟩ := use.of_pending ((content_of_hold beside).trans pending)
    have same := kept.trans beside
    exact (ih ((content_of_hold same).trans pending) others).trans same

/-- Reading content that is held in memory gives it up, and says so to nobody. -/
lemma Uses.of_whole (h : x.Uses us y) (whole : x.HasWhole limits body)
    (only : ∀ u ∈ us, ∃ declared outcome, u = .read declared outcome) :
    (∀ u ∈ us, ∃ declared, u = .read declared (.ok ())) ∧
      if us = [] then y.HasWhole limits body else y.content = .released := by
  cases h with
  | nil beside => exact ⟨List.forall_mem_nil _, whole.congr beside⟩
  | @cons _ m n _ _ us beside use rest =>
    obtain ⟨⟨declared, outcome, rfl⟩, others⟩ := List.forall_mem_cons.mp only
    obtain ⟨gone, rfl⟩ := use.of_whole (whole.congr beside)
    obtain ⟨last, idle⟩ := rest.of_released gone
    refine ⟨List.forall_mem_cons.mpr ⟨⟨declared, rfl⟩, fun u hu => ?_⟩, last⟩
    obtain ⟨d, o, rfl⟩ := others u hu
    exact ⟨d, congrArg _ (idle _ hu)⟩

/-- One reading holds pending content in memory as a whole; any more give it up. -/
lemma Uses.of_reads (h : x.Uses us y) (pending : x.content = .pending body)
    (only : ∀ u ∈ us, ∃ declared outcome, u = .read declared outcome ∧
      body.refusal? x.limits declared = none) :
    (∀ u ∈ us, ∃ declared, u = .read declared (.ok ())) ∧
      match us with
      | [] => y.hold = x.hold
      | [_] => y.HasWhole x.limits body
      | _ :: _ :: _ => y.content = .released := by
  cases h with
  | nil beside => exact ⟨List.forall_mem_nil _, beside⟩
  | @cons _ m n _ _ us beside use rest =>
    obtain ⟨⟨declared, outcome, rfl, accepted⟩, others⟩ := List.forall_mem_cons.mp only
    have limits : m.limits = x.limits := congrArg Prod.snd beside
    have first := use.of_pending ((content_of_hold beside).trans pending)
    simp only [limits, accepted] at first
    obtain ⟨rfl, whole⟩ := first
    have reading : ∀ u ∈ us, ∃ declared outcome, u = .read declared outcome := by
      intro u hu
      obtain ⟨declared, outcome, e, -⟩ := others u hu
      exact ⟨declared, outcome, e⟩
    -- All others find the content in memory, so the second of all is the one that loses it.
    obtain ⟨reads, last⟩ := rest.of_whole whole reading
    refine ⟨List.forall_mem_cons.mpr ⟨⟨declared, rfl⟩, reads⟩, ?_⟩
    cases us <;> exact last

/-- A first reading that succeeds holds the whole body in memory. -/
lemma Uses.of_first_read {declared : Option ℕ} (h : x.Uses (before ++ [.read declared (.ok ())]) y)
    (pending : x.content = .pending body) (only : ∀ u ∈ before, ∃ held, u = .release held) :
    y.HasWhole x.limits body := by
  obtain ⟨k, released, reading⟩ := h.split
  cases reading with
  | @cons _ m _ _ _ _ beside use rest =>
    have same := beside.trans (released.of_releases pending only)
    have result := use.of_pending ((content_of_hold same).trans pending)
    have limits : m.limits = x.limits := congrArg Prod.snd same
    simp only [limits] at result
    cases refused : body.refusal? x.limits declared with
    | none =>
      simp only [refused, true_and] at result
      cases rest with
      | nil beside => exact result.congr beside
    | some f =>
      simp only [refused] at result
      cases result.1

/-- Whoever comes behind one who was handed the body finds none. -/
lemma Uses.handsOver_le_one (h : x.Uses us y) : (us.filter ContentUse.handsOver).length ≤ 1 := by
  induction h with
  | nil => simp
  | @cons _ _ n _ u us _ use rest ih =>
    cases hands : u.handsOver with
    | false =>
      rw [List.filter_cons_of_neg (by simp [hands])]
      exact ih
    | true =>
      -- Only a call that takes the body hands anything over, and it leaves nothing for the rest.
      have gives : u.GivesUp := by cases u <;> simp_all [ContentUse.handsOver, ContentUse.GivesUp]
      have idle := (rest.of_released (use.released_of_givesUp gives)).2
      have others : us.filter ContentUse.handsOver = [] := by
        refine List.filter_eq_nil_iff.mpr fun v hv => ?_
        have nothing := idle v hv
        cases v <;> simp_all [ContentUse.handsOver, ContentUse.Idle]
      simp [hands, others]

end Run

lemma takeBody_of_whole (h : x.HasWhole limits body) : x.takeBody.2.read = .ok body.bytes :=
  (Use.of_whole h (.take x)).2

/-- Reading request content is not idempotent. Of a body that is within the limits, whatever size is
declared, and does not break off, each of any number of readings succeeds, with anything else done to the
exchange in between but to take or give up the content. Behind a single one the whole body is there, can
be looked at, and is what is taken; behind two or more it is lost. -/
theorem content_after_reads (pending : x.content = .pending body) (whole : body.failure = none)
    (h : x.Uses us y) (only : ∀ u ∈ us, ∃ declared outcome, u = .read declared outcome ∧
      ¬(x.limits.max < body.bytes.length ∨ ∃ n ∈ declared, x.limits.max < n)) :
    (∀ u ∈ us, ∃ declared, u = .read declared (.ok ())) ∧
      y.isContentAvailable = decide (us.length = 1) ∧
      y.content? = (if us.length = 1 then some body.bytes else none) ∧
      y.takeBody.2.read = .ok (if us.length ≤ 1 then body.bytes else []) := by
  have accepted : ∀ u ∈ us, ∃ declared outcome, u = .read declared outcome ∧
      body.refusal? x.limits declared = none := by
    intro u hu
    obtain ⟨declared, outcome, e, small⟩ := only u hu
    exact ⟨declared, outcome, e, (if_neg small).trans (by rw [whole]; rfl)⟩
  obtain ⟨reads, last⟩ := h.of_reads pending accepted
  refine ⟨reads, ?_⟩
  match us with
  | [] =>
    have still : y.content = .pending body := (content_of_hold last).trans pending
    simp [isContentAvailable, content?, takeBody, still, Body.read, whole]
  | [_] => exact ⟨last.isContentAvailable, last.content, takeBody_of_whole last⟩
  | _ :: _ :: _ =>
    have gone : y.content = .released := last
    simp [isContentAvailable, content?, takeBody, gone]
    rfl

/-- The second of two readings loses the content, and succeeds. -/
theorem content_lost_to_second_reading :
    let body := Body.stream [Bytes.ofText "hel", Bytes.ofText "lo"]
    let x := ofRequest { method := .post, body } {}
    let once := x.readContent
    let twice := once.1.readContent
    once.1.content? = some (Bytes.ofText "hello") ∧ once.1.takeBody.2.read = .ok (Bytes.ofText "hello") ∧
      twice.2 = .ok () ∧ twice.1.isContentAvailable = false ∧ twice.1.takeBody.2.read = .ok [] := by
  intro body x once twice
  have first : x.Uses [.read x.declaredSize once.2] once.1 := .cons rfl (.read x) (.nil rfl)
  have both : x.Uses [.read x.declaredSize once.2, .read once.1.declaredSize twice.2] twice.1 :=
    .cons rfl (.read x) (.cons rfl (.read once.1) (.nil rfl))
  have accepted : ∀ d o, d = none → ∃ declared outcome, ContentUse.read d o = .read declared outcome ∧
      ¬(x.limits.max < body.bytes.length ∨ ∃ n ∈ declared, x.limits.max < n) := by
    rintro d o rfl
    exact ⟨none, o, rfl, by decide⟩
  have undeclared : once.1.declaredSize = none := by decide +kernel
  have held := content_after_reads rfl rfl first
    (List.forall_mem_cons.mpr ⟨accepted _ _ rfl, List.forall_mem_nil _⟩)
  have lost := content_after_reads rfl rfl both (List.forall_mem_cons.mpr
    ⟨accepted _ _ rfl, List.forall_mem_cons.mpr ⟨accepted _ _ undeclared, List.forall_mem_nil _⟩⟩)
  refine ⟨held.2.2.1, held.2.2.2, ?_, lost.2.1, lost.2.2.2⟩
  obtain ⟨declared, e⟩ := lost.1 (.read once.1.declaredSize twice.2) (by simp)
  exact (ContentUse.read.inj e).2

/-- The body of a request is handed over at most once and as it came, whatever is called on the content of
its exchange. At most one call to take it gets anything. One before which nothing was read or taken gets
the body itself, and one right behind a successful first reading gets all of its bytes. Once a reading has
failed, content in memory was given up or the body was taken, there is no content, and whoever takes the
body gets an empty one. -/
theorem handed_over_once (pending : x.content = .pending body) (h : x.Uses us y) :
    (us.filter ContentUse.handsOver).length ≤ 1 ∧
    (∀ before b after, us = before ++ .take b :: after →
      ((∀ u ∈ before, ∃ held, u = .release held) → b = body) ∧
      ∀ idle declared, before = idle ++ [.read declared (.ok ())] →
        (∀ u ∈ idle, ∃ held, u = .release held) → b.read = .ok body.bytes) ∧
    ∀ before u after, us = before ++ u :: after → u.GivesUp →
      y.content? = none ∧ ∀ b, .take b ∈ after → b = .empty := by
  refine ⟨h.handsOver_le_one, ?_, ?_⟩
  · rintro before b after rfl
    obtain ⟨m, first, rest⟩ := h.split
    cases rest with
    | @cons _ n _ _ _ _ beside use _ =>
      constructor
      · intro only
        have kept := beside.trans (first.of_releases pending only)
        exact (use.of_pending ((content_of_hold kept).trans pending)).1
      · rintro idle declared rfl only
        have whole := first.of_first_read pending only
        exact (use.of_whole (whole.congr beside)).2
  · rintro before u after rfl gives
    obtain ⟨gone, idle⟩ := h.of_givesUp gives
    exact ⟨by simp [content?, gone], fun b hb => idle _ hb⟩

/-- Read once and taken twice. -/
theorem handed_over_to_first :
    let body := Body.stream [Bytes.ofText "hel", Bytes.ofText "lo"]
    let x := ofRequest { method := .post, body } {}
    let taken := x.releaseContent.readContent.1.takeBody
    taken.2.read = .ok (Bytes.ofText "hello") ∧ taken.1.content? = none ∧ taken.1.takeBody.2 = .empty := by
  intro body x taken
  have pending : x.releaseContent.content = .pending body := rfl
  have ok : x.releaseContent.readContent.2 = .ok () := (Use.of_pending pending (.read x.releaseContent)).1
  have reading : x.releaseContent.Use (.read none (.ok ())) x.releaseContent.readContent.1 :=
    ok ▸ Use.read x.releaseContent
  have uses : x.Uses [.release false, .read none (.ok ()), .take taken.2, .take taken.1.takeBody.2]
      taken.1.takeBody.1 :=
    .cons rfl (.release x) (.cons rfl reading (.cons rfl (.take _) (.cons rfl (.take _) (.nil rfl))))
  have first : x.Uses [.release false, .read none (.ok ()), .take taken.2] taken.1 :=
    .cons rfl (.release x) (.cons rfl reading (.cons rfl (.take _) (.nil rfl)))
  obtain ⟨-, bytes, gone⟩ := handed_over_once rfl uses
  refine ⟨?_, ?_, ?_⟩
  · exact (bytes [.release false, .read none (.ok ())] _ _ rfl).2 [.release false] none rfl (by simp)
  · exact ((handed_over_once rfl first).2.2 [.release false, .read none (.ok ())] _ [] rfl trivial).1
  · exact (gone [.release false, .read none (.ok ())] _ [.take _] rfl trivial).2 _ (by simp)

end Exchange
end Gateway
