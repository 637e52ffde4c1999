import PlanReview.Chat.Client
import PlanReview.Phase.Chat
import PlanReview.Proofs.Json.RoundTrip

/-!
# What a phase gets from a server

A planner or reviewer that asks a model behind HTTP comes to a document that was checked, or fails
as a phase, whatever text the model replies with (`ChatPhase.call_cases`). Not so whatever the
server answers : a body that is no encoding of a text, and a document whose choices have another
shape than they should, make the client stumble (`Client.Stumbles`), and this passes through the
phase as it is. So does a conversation that cannot be sent. There is no other way out
(`chat_answers`).

Which answer of the server decides is found attempt by attempt : a conversation ends with the first
one that is no reason to try again (`Client.attempts_cases`).
-/

namespace PlanReview.Chat.Client

variable {c : Client} {transport : Transport} {messages : List Message} {r : HttpRequest}
  {response : HttpResponse} {fields : Json.Fields} {f : Failure} {x : Crash}

/-! ## Reading a response -/

/-- The choices in a response that have not the shape they should have, and what reading them runs
into. -/
inductive Misshapen (fields : Json.Fields) : Crash → Prop where
  | object {choices : Json.Fields} : fields.lookup "choices" = some (.obj choices) →
      choices ≠ [] → Misshapen fields (.key "0")
  | number {choices : Json} : fields.lookup "choices" = some choices →
      choices.number?.isSome = true → choices.truthy = true →
      Misshapen fields (.noItems choices.typeName)
  | text {s : String} : fields.lookup "choices" = some (.str s) → s.isEmpty = false →
      Misshapen fields (.noPart "str" "get")
  | choice {choice : Json} {rest : List Json} :
      fields.lookup "choices" = some (.arr (choice :: rest)) → choice.isObject = false →
      Misshapen fields (.noPart choice.typeName "get")
  | message {choice : Json.Fields} {message : Json} {rest : List Json} :
      fields.lookup "choices" = some (.arr (.obj choice :: rest)) →
      choice.lookup "message" = some message → message.isObject = false →
      message.truthy = true → Misshapen fields (.noPart message.typeName "get")

/-- Reading the text of a message. -/
theorem contentOf_cases (choice : Json.Fields) :
    (∃ message, choice.lookup "message" = some message ∧ message.isObject = false ∧
      message.truthy = true ∧
      partOf (orElse (choice.lookup "message") (.obj [])) "content" =
        .error (.crash (.noPart message.typeName "get"))) ∨
    ∃ content, partOf (orElse (choice.lookup "message") (.obj [])) "content" = .ok content := by
  unfold orElse
  cases choice.lookup "message" with
  | none => exact .inr ⟨_, rfl⟩
  | some message =>
    dsimp only
    cases htruthy : message.truthy with
    | false => exact .inr ⟨_, rfl⟩
    | true =>
      cases message with
      | obj fields => exact .inr ⟨_, rfl⟩
      | _ => exact .inl ⟨_, rfl, rfl, htruthy, rfl⟩

/-- The text of a response whose first choice is an object; where no choice is given it is an empty
one. -/
theorem textOf_of_choice {choice : Json.Fields} {rest : List Json}
    (hlookup : orElse (fields.lookup "choices") (.arr [.obj []]) = .arr (.obj choice :: rest))
    (hgiven : fields.lookup "choices" = some (.arr (.obj choice :: rest)) ∨ choice = []) :
    (∃ text, textOf fields = .ok text) ∨
      ∃ x, textOf fields = .error (.crash x) ∧ Misshapen fields x := by
  unfold textOf firstChoice
  rw [hlookup]
  change (∃ text, (partOf (orElse (choice.lookup "message") (.obj [])) "content" >>= _) = _) ∨
    ∃ x, (partOf (orElse (choice.lookup "message") (.obj [])) "content" >>= _) = _ ∧ _
  rcases contentOf_cases choice with ⟨message, hmessage, hshape, htruthy, hfails⟩ |
    ⟨content, hcontent⟩
  · rw [hfails]
    rcases hgiven with hgiven | rfl
    · exact .inr ⟨.noPart message.typeName "get", rfl, .message hgiven hmessage hshape htruthy⟩
    · cases hmessage
  · rw [hcontent]
    refine .inl ?_
    rcases content with _ | content
    · exact ⟨_, rfl⟩
    · cases content <;> exact ⟨_, rfl⟩

/-- Choices that count are looked at as they are. -/
theorem orElse_choices {choices : Json} (hlookup : fields.lookup "choices" = some choices)
    (htruthy : choices.truthy = true) :
    orElse (fields.lookup "choices") (.arr [.obj []]) = choices := by
  rw [hlookup]
  exact if_pos htruthy

theorem Misshapen.fails (h : Misshapen fields x) : textOf fields = .error (.crash x) := by
  unfold textOf firstChoice
  cases h with
  | @object choices hlookup hne =>
    rw [orElse_choices hlookup (by simpa [Json.truthy] using hne)]
    rfl
  | @number choices hlookup hnumber htruthy =>
    rw [orElse_choices hlookup htruthy]
    cases choices <;> first | rfl | cases hnumber
  | @text s hlookup hne =>
    rw [orElse_choices hlookup (by rw [Json.truthy, hne]; rfl)]
    rfl
  | @choice choice rest hlookup hshape =>
    rw [orElse_choices hlookup rfl]
    cases choice <;> first | rfl | cases hshape
  | @message choice message rest hlookup hmessage hshape htruthy =>
    rw [orElse_choices hlookup rfl]
    have hgiven : orElse (choice.lookup "message") (.obj []) = message := by
      rw [hmessage]
      exact if_pos htruthy
    change (partOf (orElse (choice.lookup "message") (.obj [])) "content" >>= _) = _
    rw [hgiven]
    cases message <;> first | rfl | cases hshape

/-- The text of a response is found, or the choices have not the shape they should have. -/
theorem textOf_cases (fields : Json.Fields) :
    (∃ text, textOf fields = .ok text) ∨
      ∃ x, textOf fields = .error (.crash x) ∧ Misshapen fields x := by
  have hmisshapen {x : Crash} (h : Misshapen fields x) : (∃ text, textOf fields = .ok text) ∨
      ∃ x, textOf fields = .error (.crash x) ∧ Misshapen fields x := .inr ⟨x, h.fails, h⟩
  cases hlookup : fields.lookup "choices" with
  | none => exact @textOf_of_choice fields [] [] (by rw [hlookup]; rfl) (.inr rfl)
  | some choices =>
    cases htruthy : choices.truthy with
    | false =>
      refine @textOf_of_choice fields [] [] ?_ (.inr rfl)
      rw [hlookup]
      exact if_neg (Bool.eq_false_iff.1 htruthy)
    | true =>
      cases choices with
      | null => cases htruthy
      | bool b => exact hmisshapen (.number hlookup rfl htruthy)
      | int n => exact hmisshapen (.number hlookup rfl htruthy)
      | float y => exact hmisshapen (.number hlookup rfl htruthy)
      | str s => exact hmisshapen (.text hlookup (by simpa [Json.truthy] using htruthy))
      | obj entries => exact hmisshapen (.object hlookup (by simpa [Json.truthy] using htruthy))
      | arr items =>
        cases items with
        | nil => cases htruthy
        | cons choice rest =>
          cases choice with
          | obj choice => exact textOf_of_choice (orElse_choices hlookup rfl) (.inl hlookup)
          | _ => exact hmisshapen (.choice hlookup rfl)

/-- A response that is read by neither a reply nor a refusal : its body is no encoding of a text, or
the choices in it have not the shape they should have. -/
inductive Stumbles (c : Client) (response : HttpResponse) : Crash → Prop where
  | undecodable : response.size ≤ c.maxResponseBytes → Json.textOf? response.body = none →
      Stumbles c response (.decoding (Json.encodingFault response.body))
  | misshapen {text : String} {fields : Json.Fields} {x : Crash} :
      response.size ≤ c.maxResponseBytes → Json.textOf? response.body = some text →
      Json.parse text = .ok (.obj fields) → Misshapen fields x → Stumbles c response x

/-- A response that is not too large is read from the text in its body. -/
theorem readResponse_of_text {text : String} (hsize : response.size ≤ c.maxResponseBytes)
    (htext : Json.textOf? response.body = some text) : c.readResponse response =
      (((Json.parse text).mapError fun _ => Failure.chat "Malformed JSON response") >>= fun
        | .obj fields => do return { text := some (← textOf fields), usage := usageOf fields }
        | _ => throw (.chat "Response body is not a JSON object")) := by
  have hdocument : documentOf response.body =
      (Json.parse text).mapError fun _ => Failure.chat "Malformed JSON response" := by
    simp only [documentOf, htext]
  unfold readResponse
  dsimp only
  rw [if_neg (Int.not_lt.2 hsize)]
  exact congrArg (fun document => document >>= _) hdocument

theorem Stumbles.fails (h : c.Stumbles response x) :
    c.readResponse response = .error (.crash x) := by
  cases h with
  | undecodable hsize htext =>
    unfold readResponse documentOf
    dsimp only
    rw [if_neg (Int.not_lt.2 hsize), htext]
    rfl
  | @misshapen text fields x hsize htext hparse hshape =>
    rw [readResponse_of_text hsize htext, hparse]
    change (textOf fields >>= _) = _
    rw [hshape.fails]
    rfl

/-- What reading a response comes to. -/
theorem readResponse_cases (c : Client) (response : HttpResponse) :
    (∃ reply, c.readResponse response = .ok reply) ∨
    (∃ message, c.readResponse response = .error (.chat message)) ∨
    ∃ x, c.readResponse response = .error (.crash x) ∧ c.Stumbles response x := by
  by_cases hsize : response.size ≤ c.maxResponseBytes
  · cases htext : Json.textOf? response.body with
    | none =>
      have hstumbles := Stumbles.undecodable hsize htext
      exact .inr (.inr ⟨_, hstumbles.fails, hstumbles⟩)
    | some text =>
      have hread := readResponse_of_text hsize htext
      cases hparse : Json.parse text with
      | error e =>
        rw [hread, hparse]
        exact .inr (.inl ⟨_, rfl⟩)
      | ok document =>
        rw [hparse] at hread
        cases document with
        | obj fields =>
          rcases textOf_cases fields with ⟨reply, hreply⟩ | ⟨x, -, hshape⟩
          · refine .inl ⟨{ text := some reply, usage := usageOf fields }, ?_⟩
            rw [hread]
            change (textOf fields >>= _) = _
            rw [hreply]
            rfl
          · have hstumbles := Stumbles.misshapen hsize htext hparse hshape
            exact .inr (.inr ⟨x, hstumbles.fails, hstumbles⟩)
        | _ =>
          rw [hread]
          exact .inr (.inl ⟨_, rfl⟩)
  · refine .inr (.inl ⟨"Response too large", ?_⟩)
    unfold readResponse
    dsimp only
    rw [if_pos (Int.not_le.1 hsize)]
    rfl

/-! ## Attempts -/

/-- An answer that is a reason to try again. -/
def Retries : Except String HttpResponse → Prop
  | .error _ => True
  | .ok response => ¬ response.status < 400 ∧ isRetryable response.status = true

/-- An answer is a reason to try again, or it ends the conversation. -/
theorem judge_cases (c : Client) (answer : Except String HttpResponse) :
    (Retries answer ∧ ∃ reason, c.judge answer = .failed reason) ∨
    ∃ response, answer = .ok response ∧ ¬ Retries (.ok response) ∧
      (response.status < 400 ∧ c.judge (.ok response) = .ended (c.readResponse response) ∨
        ¬ response.status < 400 ∧
          ∃ message, c.judge (.ok response) = .ended (.error (.chat message))) := by
  cases answer with
  | error reason => exact .inl ⟨True.intro, reason, rfl⟩
  | ok response =>
    by_cases hstatus : response.status < 400
    · exact .inr ⟨response, rfl, fun h => h.1 hstatus, .inl ⟨hstatus, if_pos hstatus⟩⟩
    · cases hretry : isRetryable response.status with
      | true =>
        exact .inl ⟨⟨hstatus, hretry⟩, _, (if_neg hstatus).trans (if_pos hretry)⟩
      | false =>
        have hjudge : c.judge (.ok response) = .ended (.error (.chat
            ("Request rejected with " ++ toString response.status ++ ": " ++
              c.detail response))) :=
          (if_neg hstatus).trans (if_neg (Bool.eq_false_iff.1 hretry))
        refine .inr ⟨response, rfl, fun h => ?_, .inr ⟨hstatus, _, hjudge⟩⟩
        exact Bool.false_ne_true (hretry.symm.trans h.2)

/-- A conversation ends with the first answer that is no reason to try again, or it is given up. -/
theorem attempts_cases (c : Client) (transport : Transport) (r : HttpRequest) (made left : Nat) :
    (∃ n response, made ≤ n ∧ n ≤ made + left ∧
      (∀ m, made ≤ m → m < n → Retries (transport m r)) ∧ transport n r = .ok response ∧
      ¬ Retries (.ok response) ∧
      c.judge (.ok response) = .ended (c.attempts transport r made left).reply) ∨
    ((∀ m, made ≤ m → m ≤ made + left → Retries (transport m r)) ∧
      ∃ reason, c.judge (transport (made + left) r) = .failed reason ∧
        (c.attempts transport r made left).reply = .error (c.givenUp reason)) := by
  -- an answer that ends the conversation is the last one, however many attempts are left
  have hended (left : Nat) {made : Nat} {response : HttpResponse}
      (hanswer : transport made r = .ok response) {reply : Except Failure ModelReply}
      (hjudge : c.judge (.ok response) = .ended reply) :
      c.judge (.ok response) = .ended (c.attempts transport r made left).reply := by
    rw [← hanswer] at hjudge ⊢
    cases left <;> rw [attempts, hjudge]
  induction left generalizing made with
  | zero =>
    rcases c.judge_cases (transport made r) with ⟨hretries, reason, hjudge⟩ |
      ⟨response, hanswer, hfinal, hjudge⟩
    · refine .inr ⟨fun m hle hm => ?_, reason, hjudge, by rw [attempts, hjudge]⟩
      rwa [Nat.le_antisymm hm hle]
    · refine .inl ⟨made, response, Nat.le_refl _, Nat.le_refl _, fun m hle hm => by omega, hanswer,
        hfinal, ?_⟩
      rcases hjudge with ⟨-, hjudge⟩ | ⟨-, message, hjudge⟩
      · exact hended 0 hanswer hjudge
      · exact hended 0 hanswer hjudge
  | succ left ih =>
    rcases c.judge_cases (transport made r) with ⟨hretries, reason, hjudge⟩ |
      ⟨response, hanswer, hfinal, hjudge⟩
    · have hreply : (c.attempts transport r made (left + 1)).reply =
          (c.attempts transport r (made + 1) left).reply := by
        rw [attempts, hjudge]
      have hfirst {m : Nat} (hle : made ≤ m) (h : made + 1 ≤ m → Retries (transport m r)) :
          Retries (transport m r) := by
        rcases Nat.eq_or_lt_of_le hle with rfl | hlt
        · exact hretries
        · exact h hlt
      rw [hreply, Nat.add_comm left 1, ← Nat.add_assoc]
      rcases ih (made + 1) with ⟨n, response, hle, hn, hearlier, hrest⟩ | ⟨hall, hgiven⟩
      · exact .inl ⟨n, response, by omega, by omega,
          fun m hm hlt => hfirst hm fun h => hearlier m h hlt, hrest⟩
      · exact .inr ⟨fun m hm hlt => hfirst hm fun h => hall m h (by omega), hgiven⟩
    · refine .inl ⟨made, response, Nat.le_refl _, by omega, fun m hle hm => by omega, hanswer,
        hfinal, ?_⟩
      rcases hjudge with ⟨-, hjudge⟩ | ⟨-, message, hjudge⟩
      · exact hended (left + 1) hanswer hjudge
      · exact hended (left + 1) hanswer hjudge

/-! ## Conversations -/

/-- The request for a conversation. -/
def request (c : Client) (url : String) (messages : List Message) : HttpRequest :=
  { url := url, headers := c.headers, body := c.payload messages }

/-- The answer number `n` is the first that is no reason to try the request again. -/
structure EndsAt (transport : Transport) (r : HttpRequest) (n : Nat) (response : HttpResponse) :
    Prop where
  within : n < maxAttempts
  earlier : ∀ m < n, Retries (transport m r)
  answer : transport n r = .ok response
  final : ¬ Retries (.ok response)

/-- Why a conversation comes neither to a reply nor to a failure of the model. -/
inductive Escapes (c : Client) (transport : Transport) (messages : List Message) :
    Failure → Prop where
  /-- The base URL is none. -/
  | address {f : Failure} : c.url = .error f → Escapes c transport messages f
  /-- A number in the request cannot be written. -/
  | payload {url : String} : c.url = .ok url → (c.payload messages).isFinite = false →
      Escapes c transport messages (.value "Out of range float values are not JSON compliant")
  /-- The client stumbles over the answer. -/
  | response {url : String} {n : Nat} {response : HttpResponse} {x : Crash} : c.url = .ok url →
      (c.payload messages).isFinite = true → EndsAt transport (c.request url messages) n response →
      response.status < 400 → c.Stumbles response x → Escapes c transport messages (.crash x)

/-- A conversation that is sent, attempt by attempt. -/
theorem converse_of_url {url : String} (hurl : c.url = .ok url)
    (hfinite : (c.payload messages).isFinite = true) : c.converse transport messages =
      c.attempts transport (c.request url messages) 0 (maxAttempts - 1) := by
  unfold converse
  rw [hurl]
  exact if_pos hfinite

/-- A conversation that ends at an answer replies with what this answer is judged to be. -/
theorem EndsAt.judge_eq {url : String} {n : Nat} (hurl : c.url = .ok url)
    (hfinite : (c.payload messages).isFinite = true)
    (hends : EndsAt transport (c.request url messages) n response) :
    c.judge (.ok response) = .ended (c.converse transport messages).reply := by
  rw [converse_of_url hurl hfinite]
  rcases c.attempts_cases transport (c.request url messages) 0 (maxAttempts - 1) with
    ⟨k, other, -, hk, hearlier, hanswer, hfinal, hreply⟩ | ⟨hall, -⟩
  · have hsame : k = n := by
      rcases Nat.lt_trichotomy k n with hlt | heq | hlt
      · have hretries := hends.earlier k hlt
        rw [hanswer] at hretries
        exact absurd hretries hfinal
      · exact heq
      · have hretries := hearlier n (Nat.zero_le n) hlt
        rw [hends.answer] at hretries
        exact absurd hretries hends.final
    rw [hsame, hends.answer] at hanswer
    cases hanswer
    exact hreply
  · have hretries := hall n (Nat.zero_le n) (by have := hends.within; omega)
    rw [hends.answer] at hretries
    exact absurd hretries hends.final

theorem Escapes.fails (h : c.Escapes transport messages f) :
    (c.converse transport messages).reply = .error f := by
  cases h with
  | address hurl =>
    unfold converse
    rw [hurl]
  | payload hurl hfinite =>
    unfold converse
    rw [hurl]
    dsimp only
    rw [hfinite]
    rfl
  | @response url n response x hurl hfinite hends hstatus hstumbles =>
    have hjudge : c.judge (.ok response) = .ended (.error (.crash x)) := by
      rw [judge, if_pos hstatus, hstumbles.fails]
    exact (Attempt.ended.inj (hjudge.symm.trans (hends.judge_eq hurl hfinite))).symm

/-- A conversation comes to a reply or to a failure of the model, or it escapes. -/
theorem converse_cases (c : Client) (transport : Transport) (messages : List Message) :
    (∃ reply, (c.converse transport messages).reply = .ok reply) ∨
    (∃ message, (c.converse transport messages).reply = .error (.chat message)) ∨
    ∃ f, (c.converse transport messages).reply = .error f ∧ c.Escapes transport messages f := by
  have hescapes {f : Failure} (h : c.Escapes transport messages f) :
      ∃ f, (c.converse transport messages).reply = .error f ∧ c.Escapes transport messages f :=
    ⟨f, h.fails, h⟩
  cases hurl : c.url with
  | error f => exact .inr (.inr (hescapes (.address hurl)))
  | ok url =>
    cases hfinite : (c.payload messages).isFinite with
    | false => exact .inr (.inr (hescapes (.payload hurl hfinite)))
    | true =>
      rcases c.attempts_cases transport (c.request url messages) 0 (maxAttempts - 1) with
        ⟨n, response, -, hn, hearlier, hanswer, hfinal, hreply⟩ | ⟨-, reason, -, hreply⟩
      · rw [← converse_of_url hurl hfinite] at hreply
        have hends : EndsAt transport (c.request url messages) n response :=
          ⟨Nat.lt_of_le_of_lt hn (by decide), fun m hm => hearlier m (Nat.zero_le m) hm, hanswer,
            hfinal⟩
        rcases c.judge_cases (.ok response) with ⟨hretries, -⟩ | ⟨other, heq, -, hjudge⟩
        · exact absurd hretries hfinal
        · cases heq
          rcases hjudge with ⟨hstatus, hjudge⟩ | ⟨-, message, hjudge⟩
          · have hread := Attempt.ended.inj (hreply.symm.trans hjudge)
            rcases c.readResponse_cases response with ⟨reply, hok⟩ | ⟨message, hchat⟩ | ⟨x, -, hx⟩
            · exact .inl ⟨reply, hread.trans hok⟩
            · exact .inr (.inl ⟨message, hread.trans hchat⟩)
            · exact .inr (.inr (hescapes (.response hurl hfinite hends hstatus hx)))
          · exact .inr (.inl ⟨message, Attempt.ended.inj (hreply.symm.trans hjudge)⟩)
      · rw [← converse_of_url hurl hfinite] at hreply
        exact .inr (.inl ⟨_, hreply⟩)

/-- What escapes is neither a failure of the model nor one of a phase. -/
theorem Escapes.ne (h : c.Escapes transport messages f) :
    (∀ message, f ≠ .chat message) ∧ ∀ message, f ≠ .phase message := by
  cases h with
  | address hurl =>
    unfold url at hurl
    split at hurl <;> cases hurl
    exact ⟨fun _ => nofun, fun _ => nofun⟩
  | payload _ _ => exact ⟨fun _ => nofun, fun _ => nofun⟩
  | response _ _ _ _ _ => exact ⟨fun _ => nofun, fun _ => nofun⟩

/-- The model behind a client gives the reply of the conversation. -/
theorem asModel_reply (c : Client) (transport : Transport) (n : Nat) (messages : List Message) :
    (c.asModel transport n messages).reply = (c.converse transport messages).reply := by
  unfold asModel
  dsimp only

end PlanReview.Chat.Client

namespace PlanReview.ChatPhase

open Chat (Client Transport Message ModelReply)

variable {α : Type} {who item : String} {read : String → Json → Except Schema.Invalid α}
  {a : Chat.Answer} {c : Client} {transport : Transport} {messages : List Message}

/-! ## Phases -/

/-- A reply was read as an object, and the object was accepted. -/
def Accepts (read : String → Json → Except Schema.Invalid α) (now : String) (reply : ModelReply)
    (answer : α) : Prop :=
  ∃ document, Reply.readObject (reply.text.getD "") = .ok document ∧
    read now document = .ok answer

/-- What a phase makes of a reply : an answer that was checked, or a failure of the phase. -/
theorem call_cases {reply : ModelReply} (hreply : a.reply = .ok reply) (now : String) :
    (∃ answer, (call who item read a).answer now = .ok answer ∧ Accepts read now reply answer) ∨
    ∃ message, (call who item read a).answer now = .error (.phase message) := by
  unfold call
  dsimp only
  rw [hreply]
  change (∃ answer, (payload who reply >>= _) = _ ∧ _) ∨ ∃ message, (payload who reply >>= _) = _
  unfold payload
  dsimp only
  split
  · exact .inr ⟨_, rfl⟩
  · cases hobject : Reply.readObject (reply.text.getD "") with
    | error fault => exact .inr ⟨_, rfl⟩
    | ok document =>
      change (∃ answer, (read now document).mapError _ = _ ∧ _) ∨
        ∃ message, (read now document).mapError _ = _
      cases hread : read now document with
      | error e => exact .inr ⟨_, rfl⟩
      | ok answer => exact .inl ⟨answer, rfl, document, hobject, hread⟩

/-- What a phase makes of a conversation that came to no reply. -/
theorem call_of_error {f : Failure} (hreply : a.reply = .error f) (now : String) :
    (call who item read a).answer now = .error (ofModel who f) := by
  unfold call
  dsimp only
  rw [hreply]
  rfl

/-- How a phase that asks a model behind HTTP ends : with an answer that was checked, as a phase
fails, or as the conversation escapes, and then for one of the reasons for that. -/
structure EndsFor (read : String → Json → Except Schema.Invalid α) (c : Client)
    (transport : Transport) (messages : List Message) (phase : Call α) : Prop where
  checked : ∀ now answer, phase.answer now = .ok answer → ∃ reply,
    (c.converse transport messages).reply = .ok reply ∧ Accepts read now reply answer
  escapes : ∀ now f, phase.answer now = .error f ∧ (∀ message, f ≠ .phase message) ↔
    c.Escapes transport messages f

/-- How a phase ends that was given the answer of a conversation. -/
theorem call_ends (who item : String) (read : String → Json → Except Schema.Invalid α)
    (ha : a.reply = (c.converse transport messages).reply) :
    EndsFor read c transport messages (call who item read a) := by
  have hescapes {f : Failure} (h : c.Escapes transport messages f) (now : String) :
      (call who item read a).answer now = .error f := by
    rw [call_of_error (ha.trans h.fails) now]
    cases f <;> first | rfl | exact absurd rfl (h.ne.1 _)
  constructor
  · intro now answer hanswer
    rcases c.converse_cases transport messages with ⟨reply, hok⟩ | ⟨message, hchat⟩ | ⟨f, -, hf⟩
    · refine ⟨reply, hok, ?_⟩
      rcases call_cases (ha.trans hok) now with ⟨other, hother, haccepts⟩ | ⟨message, herror⟩
      · cases hanswer.symm.trans hother
        exact haccepts
      · cases hanswer.symm.trans herror
    · cases hanswer.symm.trans (call_of_error (ha.trans hchat) now)
    · cases hanswer.symm.trans (hescapes hf now)
  · intro now f
    refine ⟨fun ⟨hanswer, hphase⟩ => ?_, fun h => ⟨hescapes h now, h.ne.2⟩⟩
    rcases c.converse_cases transport messages with ⟨reply, hok⟩ | ⟨message, hchat⟩ | ⟨g, -, hg⟩
    · rcases call_cases (ha.trans hok) now with ⟨other, hother, -⟩ | ⟨message, herror⟩
      · cases hanswer.symm.trans hother
      · cases hanswer.symm.trans herror
        exact absurd rfl (hphase message)
    · cases hanswer.symm.trans (call_of_error (ha.trans hchat) now)
      exact absurd rfl (hphase _)
    · cases hanswer.symm.trans (hescapes hg now)
      exact hg

/-- Whatever a server answers, a planner or a reviewer that asks a model behind it comes to a plan
or a review that was checked, or fails as a phase, unless the conversation cannot be sent, or the
client stumbles over the answer that ends it. Then it fails in another way. -/
theorem chat_answers (c : Client) (transport : Transport) (r : Recipe) (n : Nat) :
    (∀ context, EndsFor Plan.ofJson c transport (conversation r (Prompt.planning r context))
      (planner (c.asModel transport) r n context)) ∧
    ∀ plan context, EndsFor (fun _ => Review.ofJson) c transport
      (conversation r (Prompt.reviewing r plan context))
      (reviewer (c.asModel transport) r n plan context) :=
  ⟨fun context => call_ends "planner" "plan" Plan.ofJson
      (c.asModel_reply transport n (conversation r (Prompt.planning r context))),
    fun plan context => call_ends "reviewer" "review" (fun _ => Review.ofJson)
      (c.asModel_reply transport n (conversation r (Prompt.reviewing r plan context)))⟩

/-- A client of some server. -/
def plainClient : Client where
  baseUrl := "https://example.com/v1"
  apiKey := "key"
  model := "demo"

/-- A recipe that says little. -/
def plainRecipe : Recipe where
  path := .ofString "planner.yaml"
  instructions := "Plan."

/-- A server whose only choice is a text, where it should be an object with a message. -/
def curtServer : Transport := fun _ _ =>
  .ok { body := .text (Json.write Json.stored (.obj [("choices", .arr [.str "hi"])])) }

/-- With this server the planner neither answers nor fails as a phase. -/
theorem planner_of_curtServer :
    (planner (plainClient.asModel curtServer) plainRecipe 0 { task := "Add foo" }).answer "" =
      .error (.crash (.attribute "'str' object has no attribute 'get'")) := by
  have hwords : Crash.noPart "str" "get" =
      .attribute "'str' object has no attribute 'get'" := by
    refine congrArg Crash.attribute ?_
    decide +kernel
  have htext : Json.textOf? (.text (Json.write Json.stored
      (.obj [("choices", .arr [.str "hi"])]))) =
        some (Json.write Json.stored (.obj [("choices", .arr [.str "hi"])])) := by
    decide +kernel
  have hparse := Json.parse_write (j := .obj [("choices", .arr [.str "hi"])])
    Json.isReadable_stored (.inl Json.writesNull_stored)
  have hescapes : plainClient.Escapes curtServer
      (conversation plainRecipe (Prompt.planning plainRecipe { task := "Add foo" }))
      (.crash (.noPart "str" "get")) := by
    refine .response (n := 0) rfl rfl
      ⟨by decide, nofun, rfl, fun h => h.1 (by decide)⟩ (by decide) (.misshapen ?_ htext hparse ?_)
    · decide +kernel
    · have hmisshapen : Client.Misshapen [("choices", .arr [.str "hi"])]
          (.noPart (Json.str "hi").typeName "get") := .choice rfl rfl
      exact hmisshapen
  rw [← hwords]
  exact call_of_error ((Client.asModel_reply ..).trans hescapes.fails) ""

end PlanReview.ChatPhase
